import ChisLink.ClientExchange

/-!
# The network client

Sockets, the station configuration and name resolution. Most operations exchange
one command; the others are sequences of these with bounded waits in between.
Pointer arguments are not null and text arguments are C strings. Results are the
outputs of the C functions, or their negative codes.
-/

namespace ChisLink.NetClient

open DriverPrograms WireProtocol StorageClient WireCommands ClientExchange

/-- The network channel. -/
def clpChNet : UInt8 := 0x04

/-- Opcode of open. -/
def clpNetOpen : UInt8 := 0x01
/-- Opcode of close. -/
def clpNetClose : UInt8 := 0x02
/-- Opcode of send. -/
def clpNetSend : UInt8 := 0x03
/-- Opcode of recv. -/
def clpNetRecv : UInt8 := 0x04
/-- Opcode of status. -/
def clpNetStatus : UInt8 := 0x05
/-- Opcode of the configuration query. -/
def clpNetConfigGet : UInt8 := 0x06
/-- Opcode of a new configuration. -/
def clpNetConfigSet : UInt8 := 0x07
/-- Opcode of name resolution. -/
def clpNetResolve : UInt8 := 0x08
/-- Opcode of poll. -/
def clpNetPoll : UInt8 := 0x09
/-- Opcode of scan. -/
def clpNetScan : UInt8 := 0x0a
/-- Opcode of a datagram to an address. -/
def clpNetSendto : UInt8 := 0x0b
/-- Opcode of a datagram with its sender. -/
def clpNetRecvfrom : UInt8 := 0x0c
/-- Opcode of bind. -/
def clpNetBind : UInt8 := 0x0d
/-- Opcode of listen. -/
def clpNetListen : UInt8 := 0x0e
/-- Opcode of accept. -/
def clpNetAccept : UInt8 := 0x0f
/-- Opcode of the web server control. -/
def clpNetWebControl : UInt8 := 0x10

/-- Bytes of an SSID field in a configuration. -/
def clpNetConfigSsidBytes : ℕ := 32

/-- Bytes of the password field in a configuration. -/
def clpNetConfigPasswordBytes : ℕ := 64

/-- Bytes of a configuration. -/
def clpNetConfigBytes : ℕ := 108

/-- Bytes of one access point in a scan answer. -/
def clpNetScanApBytes : ℕ := 44

/-- Most access points in a scan answer. -/
def clpNetScanMaxResponseAps : UInt32 := 4

/-- Bytes before the access points of a scan answer. -/
def clpNetScanResponseHeaderBytes : ℕ := 8

/-- Most bytes of a scan answer. -/
def clpNetScanMaxResponseBytes : ℕ := 184

/-- Most data bytes of a send. -/
def clpNetSendFrameMaxData : ℕ := clpFrameMaxPayloadBytes-4

/-- Most data bytes of a datagram to an address. -/
def clpNetSendtoFrameMaxData : ℕ := clpFrameMaxPayloadBytes-12

/-- Most data bytes of a receive. -/
def clpNetRecvFrameMaxData : UInt32 := 32768

/-- Most data bytes of a datagram that is received with its sender. -/
def clpNetRecvfromFrameMaxData : UInt32 := 32760

/-- Bytes of the sender before a datagram. -/
def clpNetRecvfromAddrBytes : UInt32 := 8

/-- Socket flag of an established connection. -/
def clpNetSocketFlagConnected : UInt32 := 0x00000001

/-- Socket flag of data to receive. -/
def clpNetSocketFlagReadable : UInt32 := 0x00000004

/-- Socket flag of room to send. -/
def clpNetSocketFlagWritable : UInt32 := 0x00000008

/-- Request flag: connect the station if it is not. -/
def clpNetStatusConnectIfNeeded : UInt32 := 0x00000001

/-- Status flag of a connected station. -/
def clpNetStatusFlagConnected : UInt32 := 0x00000001

/-- Configuration flag: an SSID is given. -/
def clpNetConfigFlagHasSsid : UInt32 := 0x00000008

/-- Configuration flag: a password is given. -/
def clpNetConfigFlagPasswordPresent : UInt32 := 0x00000010

/-- Configuration flag: a password is stored. -/
def clpNetConfigFlagStoredPassword : UInt32 := 0x00000020

/-- Configuration flag: the SSID is the effective one. -/
def clpNetConfigFlagEffectiveSsid : UInt32 := 0x00000040

/-- Configuration flag: forget the credentials. -/
def clpNetConfigFlagClearCredentials : UInt32 := 0x00000080

/-- Source of a configuration: none. -/
def clpNetSourceNone : UInt32 := 0

/-- Source of a configuration: the card. -/
def clpNetSourceSd : UInt32 := 1

/-- Web control: stop. -/
def clpNetWebControlStop : UInt32 := 0

/-- Web control: start. -/
def clpNetWebControlStart : UInt32 := 1

/-- The protocols of a socket as the caller may pass them. -/
inductive NetProto where
  /-- Datagrams. -/
  | udp
  /-- A connection. -/
  | tcp
  /-- Any other value of the enumeration type. -/
  | other
deriving DecidableEq

/-- The value of a protocol on the wire. -/
def NetProto.code : NetProto → UInt32
  | .udp => 1
  | .tcp => 2
  | .other => 0

/-- The struct `cl_net_addr_t`. -/
structure NetAddr where
  /-- Address in host order. -/
  ipv4 : UInt32
  /-- Port in host order. -/
  port : UInt16
deriving DecidableEq

/-- The struct `cl_net_status_t`. -/
structure NetStatus where
  /-- Status flags. -/
  flags : UInt32
  /-- Source of the configuration. -/
  source : UInt32
  /-- Local address. -/
  ip : UInt32
  /-- Address of the gateway. -/
  gateway : UInt32
  /-- Signal strength. -/
  rssi : Int32
  /-- Transmit power in quarters of a dBm. -/
  txPowerQdbm : Int32
  /-- Power adjustment. -/
  powerAdjustQdbm : Int32
  /-- Number of attempts to connect. -/
  connectAttempts : UInt32
  /-- Open sockets. -/
  openSockets : UInt32
  /-- Most sockets. -/
  maxSockets : UInt32
  /-- The sixteen bytes of the SSID with a terminator. -/
  ssid : List UInt8
  /-- Last error. -/
  lastError : UInt32

/-- The struct `cl_net_config_t`. -/
structure NetConfig where
  /-- Configuration flags. -/
  flags : UInt32
  /-- Source of the configuration. -/
  source : UInt32
  /-- Power adjustment. -/
  powerAdjustQdbm : Int32
  /-- The bytes of the SSID field. -/
  ssid : List UInt8

/-- The struct `cl_net_scan_ap_t`. -/
structure NetScanAp where
  /-- Signal strength. -/
  rssi : Int32
  /-- Authentication mode. -/
  authmode : UInt32
  /-- Channel. -/
  channel : UInt32
  /-- The bytes of the SSID field with a terminator. -/
  ssid : List UInt8

/-- The struct `cl_net_scan_result_t`. -/
structure NetScanResult where
  /-- Access points found. -/
  total : UInt32
  /-- Access points in the answer. -/
  count : UInt32
  /-- The access points. -/
  aps : List NetScanAp

/-- The bytes of a field of fixed size, filled up with zeros. -/
def fixedField (size : ℕ) (bytes : List UInt8) : List UInt8 :=
  (bytes++List.replicate size 0).take size

/-- A text field of a payload; its last byte is the terminator. -/
def textField (payload : List UInt8) (offset size : ℕ) : List UInt8 :=
  (payload.drop offset).take (size-1)++[0]

/-- The function `cl_net_parse_status_response`. -/
def clNetParseStatusResponse (payload : List UInt8) : NetStatus :=
  { flags := wordAt payload 0
    source := wordAt payload 4
    ip := wordAt payload 8
    gateway := wordAt payload 12
    rssi := (wordAt payload 16).toInt32
    txPowerQdbm := (wordAt payload 20).toInt32
    powerAdjustQdbm := (wordAt payload 24).toInt32
    connectAttempts := wordAt payload 28
    openSockets := wordAt payload 32
    maxSockets := wordAt payload 36
    ssid := textField payload 40 16
    lastError := wordAt payload 56 }

/-- The function `cl_net_parse_config_response`. -/
def clNetParseConfigResponse (payload : List UInt8) : NetConfig :=
  { flags := wordAt payload 0
    powerAdjustQdbm := (wordAt payload 4).toInt32
    source := wordAt payload 8
    ssid := textField payload 12 clpNetConfigSsidBytes }

/-- The flags of a configuration request. -/
def configFlags (config : NetConfig) (password : Option CString) : UInt32 :=
  let flags := config.flags &&& ~~~(clpNetConfigFlagPasswordPresent |||
    clpNetConfigFlagStoredPassword ||| clpNetConfigFlagEffectiveSsid)
  let flags := if config.ssid.headD 0≠0 then
      (flags ||| clpNetConfigFlagHasSsid) &&& ~~~clpNetConfigFlagClearCredentials
    else flags
  if password.isSome then flags ||| clpNetConfigFlagPasswordPresent else flags

/-- The function `cl_net_build_config_request`, `none` where it refuses. -/
def clNetBuildConfigRequest (config : NetConfig) (password : Option CString) :
    Option (List UInt8) :=
  if config.source≠clpNetSourceSd ∧ config.source≠clpNetSourceNone then none
  else if password.any fun text => clpNetConfigPasswordBytes≤text.1.length then none
  else
    some (le32 (configFlags config password)++le32 config.powerAdjustQdbm.toUInt32++
      le32 config.source++
      fixedField clpNetConfigSsidBytes (config.ssid.take (clpNetConfigSsidBytes-1))++
      fixedField clpNetConfigPasswordBytes ((password.map fun text => text.1).getD []))

/-- One access point of a scan answer. -/
def scanApOf (entry : List UInt8) : NetScanAp :=
  { rssi := (wordAt entry 0).toInt32
    authmode := wordAt entry 4
    channel := wordAt entry 8
    ssid := textField entry 12 clpNetConfigSsidBytes }

/-- The function `cl_net_parse_scan_response`. -/
def clNetParseScanResponse (payloadLength : UInt32) (payload : List UInt8) :
    Except ℤ NetScanResult :=
  if payloadLength.toNat<clpNetScanResponseHeaderBytes then .error (-1)
  else
    let count := wordAt payload 4
    let expectedLength := UInt32.ofNat clpNetScanResponseHeaderBytes+
      count*UInt32.ofNat clpNetScanApBytes
    if clpNetScanMaxResponseAps<count ∨ payloadLength≠expectedLength then .error (-2)
    else
      .ok
        { total := wordAt payload 0
          count := count
          aps := (List.range count.toNat).map fun i =>
            scanApOf (payload.drop (clpNetScanResponseHeaderBytes+i*clpNetScanApBytes)) }

/-- The macro `CL_NET_IPV4`. -/
def clNetIpv4 (a b c d : UInt32) : UInt32 :=
  ((a &&& 0xff) <<< 24) ||| ((b &&& 0xff) <<< 16) ||| ((c &&& 0xff) <<< 8) ||| (d &&& 0xff)

/-- The loop of `cl_net_parse_ipv4`, with the parts that are complete, the current
one and the number of its digits. -/
def parseIpv4From (parts : List UInt32) (part : UInt32) (digitCount : ℕ) :
    List UInt8 → Option UInt32
  | [] =>
    match parts,digitCount with
    | [a,b,c],_+1 => some (clNetIpv4 a b c part)
    | _,_ => none
  | ch::text =>
    if 48≤ ch ∧ ch≤57 then
      if 3≤digitCount then none
      else if 255<part*10+(ch.toUInt32-48) then none
      else parseIpv4From parts (part*10+(ch.toUInt32-48)) (digitCount+1) text
    else if ch=46 then
      if digitCount=0 ∨ 3≤parts.length then none
      else parseIpv4From (parts++[part]) 0 0 text
    else none

/-- The function `cl_net_parse_ipv4`. -/
def clNetParseIpv4 (text : CString) : Option UInt32 := parseIpv4From [] 0 0 text.1

variable {δ : Type}

/-- A result that is an error if it is zero. -/
def nonzero (word : UInt32) : Except ℤ UInt32 := if word=0 then .error (-3) else .ok word

/-- A socket handle of an answer, an error if it is zero. -/
def handleOf (payload : List UInt8) : Except ℤ UInt16 :=
  let handle := (wordAt payload 0).toUInt16
  if handle=0 then .error (-3) else .ok handle

/-- The function `cl_net_status`. -/
def clNetStatus (net : Peer δ) (flags : UInt32) : Prog (Link δ) (Except ℤ NetStatus) :=
  withScratch net 60
    (exchange net clpChNet clpNetStatus [le32 flags]
      (expectExact net 60 fun payload => .ok (clNetParseStatusResponse payload)))

/-- The function `cl_net_connect`. -/
def clNetConnect (net : Peer δ) : Prog (Link δ) (Except ℤ NetStatus) :=
  andThen (clNetStatus net clpNetStatusConnectIfNeeded) fun status =>
    pure (if status.flags &&& clpNetStatusFlagConnected≠0 then .ok status else .error (-3))

/-- The function `cl_net_config_get`. -/
def clNetConfigGet (net : Peer δ) : Prog (Link δ) (Except ℤ NetConfig) :=
  withScratch net clpNetConfigBytes
    (exchange net clpChNet clpNetConfigGet []
      (expectExact net 108 fun payload => .ok (clNetParseConfigResponse payload)))

/-- The function `cl_net_config_set`. -/
def clNetConfigSet (net : Peer δ) (config : NetConfig) (password : Option CString) :
    Prog (Link δ) (Except ℤ Unit) :=
  withScratch net clpNetConfigBytes
    (match clNetBuildConfigRequest config password with
    | none => refuse (-1)
    | some payload => exchange net clpChNet clpNetConfigSet [payload] statusOnly)

/-- The function `cl_net_web_control`. -/
def clNetWebControl (net : Peer δ) (action : UInt32) : Prog (Link δ) (Except ℤ Unit) :=
  if action≠clpNetWebControlStop ∧ action≠clpNetWebControlStart then refuse (-1)
  else withScratch net 4 (exchange net clpChNet clpNetWebControl [le32 action] statusOnly)

/-- The function `cl_net_scan`. -/
def clNetScan (net : Peer δ) (startIndex maxEntries : UInt32) :
    Prog (Link δ) (Except ℤ NetScanResult) :=
  if maxEntries=0 ∨ clpNetScanMaxResponseAps< maxEntries then refuse (-1)
  else
    withScratch net clpNetScanMaxResponseBytes
      (exchange net clpChNet clpNetScan [le32 startIndex++le32 maxEntries]
        (expectWithin net 0 (UInt32.ofNat clpNetScanMaxResponseBytes) clNetParseScanResponse))

/-- The function `cl_net_resolve_ipv4`. -/
def clNetResolveIpv4 (net : Peer δ) (host : CString) : Prog (Link δ) (Except ℤ UInt32) :=
  match clNetParseIpv4 host with
  | some ipv4 => pure (.ok ipv4)
  | none =>
    if host.1=[] ∨ 0xffffffff-4<host.1.length+1 then refuse (-1)
    else
      withScratch net 4
        (exchange net clpChNet clpNetResolve [le32 0,host.wire]
          (expectExact net 4 fun payload => nonzero (wordAt payload 0)))

/-- The function `cl_net_open`. -/
def clNetOpen (net : Peer δ) (proto : NetProto) (remote : NetAddr) :
    Prog (Link δ) (Except ℤ UInt16) :=
  withScratch net 12
    (if proto=.other ∨ (proto=.tcp ∧ remote.port=0) then refuse (-1)
    else
      exchange net clpChNet clpNetOpen
        [le32 proto.code++le32 remote.ipv4++le32 remote.port.toUInt32]
        (expectExact net 4 handleOf))

/-- The function `cl_net_open_udp`. -/
def clNetOpenUdp (net : Peer δ) : Prog (Link δ) (Except ℤ UInt16) :=
  clNetOpen net .udp ⟨0,0⟩

/-- The function `cl_net_bind`. -/
def clNetBind (net : Peer δ) (proto : NetProto) (local_ : NetAddr) :
    Prog (Link δ) (Except ℤ UInt16) :=
  if proto=.other then refuse (-1)
  else
    withScratch net 12
      (exchange net clpChNet clpNetBind
        [le32 proto.code++le32 local_.ipv4++le32 local_.port.toUInt32]
        (expectExact net 4 handleOf))

/-- The function `cl_net_listen`. -/
def clNetListen (net : Peer δ) (handle : UInt16) (backlog : UInt32) :
    Prog (Link δ) (Except ℤ Unit) :=
  if handle=0 then refuse (-1)
  else
    withScratch net 8
      (exchange net clpChNet clpNetListen [le32 handle.toUInt32++le32 backlog] statusOnly)

/-- The end of `cl_net_accept`; without a payload there is no connection yet. -/
def finishAccept (net : Peer δ) (response : ClpHeader) :
    Prog (Link δ) (Except ℤ (Option (UInt16×NetAddr))) :=
  if response.imm≠clpStatusOk then discardResponseError net response
  else if response.length=0 then pure (.ok none)
  else
    expectExact net 12 (fun payload =>
      (handleOf payload).map fun handle =>
        some (handle,⟨wordAt payload 4,(wordAt payload 8).toUInt16⟩)) response

/-- The function `cl_net_accept`. -/
def clNetAccept (net : Peer δ) (listenHandle : UInt16) :
    Prog (Link δ) (Except ℤ (Option (UInt16×NetAddr))) :=
  if listenHandle=0 then refuse (-1)
  else
    withScratch net 12
      (exchange net clpChNet clpNetAccept [le32 listenHandle.toUInt32] (finishAccept net))

/-- The function `cl_net_open_host`. -/
def clNetOpenHost (net : Peer δ) (proto : NetProto) (host : CString) (port : UInt16) :
    Prog (Link δ) (Except ℤ UInt16) :=
  if port=0 then refuse (-1)
  else andThen (clNetResolveIpv4 net host) fun ipv4 => clNetOpen net proto ⟨ipv4,port⟩

/-- The function `cl_net_close`. -/
def clNetClose (net : Peer δ) (handle : UInt16) : Prog (Link δ) (Except ℤ Unit) :=
  if handle=0 then refuse (-1)
  else
    withScratch net 4 (exchange net clpChNet clpNetClose [le32 handle.toUInt32] statusOnly)

/-- The function `cl_net_poll`. -/
def clNetPoll (net : Peer δ) (handle : UInt16) : Prog (Link δ) (Except ℤ UInt32) :=
  if handle=0 then refuse (-1)
  else
    withScratch net 4
      (exchange net clpChNet clpNetPoll [le32 handle.toUInt32]
        (expectExact net 4 fun payload => .ok (wordAt payload 0)))

/-- The loop of `net_wait_flags_budget`: the flags, with the attempts that are left
of the budget. -/
def waitFlagsFrom (net : Peer δ) (handle : UInt16) (requiredFlags : UInt32) :
    (remaining : ℕ) → Prog (Link δ) (Except ℤ (UInt32×Fin remaining))
  | 0 => refuse (-3)
  | remaining+1 =>
    andThen (clNetPoll net handle) fun flags =>
      if flags &&& requiredFlags=requiredFlags then pure (.ok (flags,Fin.last remaining))
      else
        andThen (waitFlagsFrom net handle requiredFlags remaining) fun reply =>
          pure (.ok (reply.1,reply.2.castSucc))

/-- The function `net_wait_flags_budget`. -/
def netWaitFlagsBudget (net : Peer δ) (handle : UInt16) (requiredFlags : UInt32)
    (remaining : ℕ) : Prog (Link δ) (Except ℤ (UInt32×Fin remaining)) :=
  if handle=0 ∨ requiredFlags=0 then refuse (-1)
  else waitFlagsFrom net handle requiredFlags remaining

/-- A budget of at least one attempt. -/
def atLeastOne (attempts : UInt32) : ℕ := if attempts=0 then 1 else attempts.toNat

/-- The function `cl_net_wait_flags`. -/
def clNetWaitFlags (net : Peer δ) (handle : UInt16) (requiredFlags attempts : UInt32) :
    Prog (Link δ) (Except ℤ UInt32) :=
  andThen (netWaitFlagsBudget net handle requiredFlags (atLeastOne attempts)) fun reply =>
    pure (.ok reply.1)

/-- The function `cl_net_wait_connected`. -/
def clNetWaitConnected (net : Peer δ) (handle : UInt16) (attempts : UInt32) :
    Prog (Link δ) (Except ℤ UInt32) :=
  clNetWaitFlags net handle clpNetSocketFlagConnected attempts

/-- The function `cl_net_send`: the bytes written. -/
def clNetSend (net : Peer δ) (handle : UInt16) (data : List UInt8) :
    Prog (Link δ) (Except ℤ ℕ) :=
  if handle=0 then refuse (-1)
  else
    withScratch net 4
      (exchange net clpChNet clpNetSend
        [le32 handle.toUInt32,data.take clpNetSendFrameMaxData]
        (expectExact net 4 fun payload => countOf (wordAt payload 0)))

/-- The function `cl_net_sendto`. -/
def clNetSendto (net : Peer δ) (handle : UInt16) (remote : NetAddr) (data : List UInt8) :
    Prog (Link δ) (Except ℤ ℕ) :=
  if handle=0 ∨ remote.port=0 ∨ clpNetSendtoFrameMaxData<data.length then refuse (-1)
  else
    withScratch net 12
      (exchange net clpChNet clpNetSendto
        [le32 handle.toUInt32++le32 remote.ipv4++le32 remote.port.toUInt32,data]
        (expectExact net 4 fun payload => countOf (wordAt payload 0)))

/-- The loop of `cl_net_send_all`. -/
def sendAllFrom (net : Peer δ) (handle : UInt16) (data : List UInt8) (stallBudget : ℕ)
    (sent remaining : ℕ) : Prog (Link δ) (Except ℤ ℕ) :=
  if _more : sent<data.length then
    andThen (clNetSend net handle (data.drop sent)) fun written =>
      if _some : 0<written then
        if _fits : data.length-sent<written then refuse (-2)
        else sendAllFrom net handle data stallBudget (sent+written) stallBudget
      else
        andThen (netWaitFlagsBudget net handle clpNetSocketFlagWritable remaining) fun reply =>
          sendAllFrom net handle data stallBudget sent reply.2
  else pure (.ok sent)
termination_by (data.length-sent,remaining)

/-- The function `cl_net_send_all`. -/
def clNetSendAll (net : Peer δ) (handle : UInt16) (data : List UInt8) (waitAttempts : UInt32) :
    Prog (Link δ) (Except ℤ ℕ) :=
  if handle=0 ∨ 0x7fffffff<data.length then refuse (-1)
  else sendAllFrom net handle data (atLeastOne waitAttempts) 0 (atLeastOne waitAttempts)

/-- The function `cl_net_udp_send`. -/
def clNetUdpSend (net : Peer δ) (remote : NetAddr) (data : List UInt8) :
    Prog (Link δ) (Except ℤ ℕ) :=
  andThen (clNetOpen net .udp remote) fun handle =>
    andFinally (clNetSend net handle data) (clNetClose net handle)

/-- The function `cl_net_udp_send_host`. -/
def clNetUdpSendHost (net : Peer δ) (host : CString) (port : UInt16) (data : List UInt8) :
    Prog (Link δ) (Except ℤ ℕ) :=
  andThen (clNetOpenHost net .udp host port) fun handle =>
    andFinally (clNetSend net handle data) (clNetClose net handle)

/-- The function `cl_net_recv`. -/
def clNetRecv (net : Peer δ) (handle : UInt16) (capacity : UInt32) :
    Prog (Link δ) (Except ℤ (List UInt8)) :=
  if handle=0 then refuse (-1)
  else
    withScratch net 8
      (exchange net clpChNet clpNetRecv
        [le32 handle.toUInt32++le32 (min capacity clpNetRecvFrameMaxData)]
        (expectWithin net 0 (min capacity clpNetRecvFrameMaxData) fun _ payload =>
          .ok payload))

/-- The end of `cl_net_recvfrom`; without a payload there is no datagram. -/
def finishRecvfrom (net : Peer δ) (requestCapacity : UInt32) (response : ClpHeader) :
    Prog (Link δ) (Except ℤ (Option (NetAddr×List UInt8))) :=
  if response.imm≠clpStatusOk then discardResponseError net response
  else if response.length=0 then pure (.ok none)
  else if response.length<clpNetRecvfromAddrBytes ∨
      requestCapacity+clpNetRecvfromAddrBytes< response.length then
    discardResponseError net response
  else do
    let payload ← readPayloadWords net.transport clpNetRecvfromAddrBytes
    let remote : NetAddr := ⟨wordAt payload 0,(wordAt payload 4).toUInt16⟩
    let dataLength := response.length-clpNetRecvfromAddrBytes
    if dataLength≠0 then do
      let data ← readPayloadWords net.transport dataLength
      pure (.ok (some (remote,data)))
    else pure (.ok (some (remote,[])))

/-- The function `cl_net_recvfrom`. -/
def clNetRecvfrom (net : Peer δ) (handle : UInt16) (capacity : UInt32) :
    Prog (Link δ) (Except ℤ (Option (NetAddr×List UInt8))) :=
  if handle=0 then refuse (-1)
  else
    withScratch net 8
      (exchange net clpChNet clpNetRecvfrom
        [le32 handle.toUInt32++le32 (min capacity clpNetRecvfromFrameMaxData)]
        (finishRecvfrom net (min capacity clpNetRecvfromFrameMaxData)))

/-- The loop of `cl_net_recv_wait`. -/
def recvWaitFrom (net : Peer δ) (handle : UInt16) (capacity : UInt32) (remaining : ℕ) :
    Prog (Link δ) (Except ℤ (List UInt8)) :=
  andThen (clNetRecv net handle capacity) fun data =>
    if data≠[] then pure (.ok data)
    else
      andThen (netWaitFlagsBudget net handle clpNetSocketFlagReadable remaining) fun reply =>
        recvWaitFrom net handle capacity reply.2
termination_by remaining

/-- The function `cl_net_recv_wait`. -/
def clNetRecvWait (net : Peer δ) (handle : UInt16) (capacity waitAttempts : UInt32) :
    Prog (Link δ) (Except ℤ (List UInt8)) :=
  if handle=0 ∨ capacity=0 ∨ 0x7fffffff<capacity then refuse (-1)
  else recvWaitFrom net handle capacity (atLeastOne waitAttempts)

/-- The function `cl_net_open_tcp_host_wait`. -/
def clNetOpenTcpHostWait (net : Peer δ) (host : CString) (port : UInt16) (attempts : UInt32) :
    Prog (Link δ) (Except ℤ UInt16) :=
  andThen (clNetOpenHost net .tcp host port) fun handle => do
    let connected ← clNetWaitConnected net handle attempts
    match connected with
    | .error code => do
      let _ ← clNetClose net handle
      pure (.error code)
    | .ok _ => pure (.ok handle)

/-- What `cl_net_tcp_request_host` does on an open connection: the data is sent, and
an answer is received if there is room for it. -/
def tcpRequest (net : Peer δ) (handle : UInt16) (txData : List UInt8)
    (rxCapacity ioAttempts : UInt32) : Prog (Link δ) (Except ℤ (ℕ×List UInt8)) :=
  if rxCapacity≠0 then
    andThen (clNetRecvWait net handle rxCapacity ioAttempts) fun data =>
      pure (.ok (data.length,data))
  else pure (.ok (txData.length,[]))

/-- The function `cl_net_tcp_request_host`: its result with the data received. -/
def clNetTcpRequestHost (net : Peer δ) (host : CString) (port : UInt16) (txData : List UInt8)
    (rxCapacity connectAttempts ioAttempts : UInt32) :
    Prog (Link δ) (Except ℤ (ℕ×List UInt8)) :=
  andThen (clNetOpenTcpHostWait net host port connectAttempts) fun handle => do
    let sent ← if txData≠[] then clNetSendAll net handle txData ioAttempts
      else pure (.ok 0)
    match sent with
    | .error code => do
      let _ ← clNetClose net handle
      pure (.error code)
    | .ok _ =>
      andFinally (tcpRequest net handle txData rxCapacity ioAttempts) (clNetClose net handle)

end ChisLink.NetClient
