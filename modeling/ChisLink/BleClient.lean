import ChisLink.ClientExchange

/-!
# The Bluetooth client

Scanning, connections, the GATT client and server, pairing and the game link.
Most operations exchange one command; the others are sequences of these. Pointer
arguments are not null. Results are the outputs of the C functions, or their
negative codes.
-/

namespace ChisLink.BleClient

open DriverPrograms WireProtocol StorageClient WireCommands ClientExchange

/-- The Bluetooth channel. -/
def clpChBle : UInt8 := 0x05

/-- Opcode of a scan. -/
def clpBleScanStart : UInt8 := 0x01
/-- Opcode of the end of a scan. -/
def clpBleScanStop : UInt8 := 0x02
/-- Opcode of connect. -/
def clpBleConnect : UInt8 := 0x03
/-- Opcode of disconnect. -/
def clpBleDisconnect : UInt8 := 0x04
/-- Opcode of an attribute read. -/
def clpBleGattRead : UInt8 := 0x05
/-- Opcode of an attribute write. -/
def clpBleGattWrite : UInt8 := 0x06
/-- Opcode of the next event. -/
def clpBleEventNext : UInt8 := 0x07
/-- Opcode of a characteristic search without its UUID. -/
def clpBleGattFindChr16 : UInt8 := 0x08
/-- Opcode of the notification switch. -/
def clpBleGattNotify : UInt8 := 0x09
/-- Opcode of a service search. -/
def clpBleGattFindService : UInt8 := 0x0a
/-- Opcode of a characteristic search. -/
def clpBleGattFindChr : UInt8 := 0x0b
/-- Opcode of a descriptor search. -/
def clpBleGattFindDesc : UInt8 := 0x0c
/-- Opcode of a service search by a long UUID. -/
def clpBleGattFindService128 : UInt8 := 0x0d
/-- Opcode of a characteristic search by a long UUID. -/
def clpBleGattFindChr128 : UInt8 := 0x0e
/-- Opcode of a descriptor search by a long UUID. -/
def clpBleGattFindDesc128 : UInt8 := 0x0f
/-- Opcode of new connection parameters. -/
def clpBleConnUpdate : UInt8 := 0x10
/-- Opcode of the MTU exchange. -/
def clpBleExchangeMtu : UInt8 := 0x11
/-- Opcode of the connection information. -/
def clpBleConnInfo : UInt8 := 0x12
/-- Opcode of a read at an offset. -/
def clpBleGattReadLong : UInt8 := 0x13
/-- Opcode of a write at an offset. -/
def clpBleGattWriteLong : UInt8 := 0x14
/-- Opcode of pairing. -/
def clpBlePair : UInt8 := 0x15
/-- Opcode of the passkey. -/
def clpBlePasskeyReply : UInt8 := 0x16
/-- Opcode of a server reset. -/
def clpBleGattsReset : UInt8 := 0x17
/-- Opcode of a new service. -/
def clpBleGattsAddService : UInt8 := 0x18
/-- Opcode of a new characteristic. -/
def clpBleGattsAddChr : UInt8 := 0x19
/-- Opcode of a new descriptor. -/
def clpBleGattsAddDesc : UInt8 := 0x1a
/-- Opcode of the server start. -/
def clpBleGattsStart : UInt8 := 0x1b
/-- Opcode of the server stop. -/
def clpBleGattsStop : UInt8 := 0x1c
/-- Opcode of advertising. -/
def clpBleAdvStart : UInt8 := 0x1d
/-- Opcode of the end of advertising. -/
def clpBleAdvStop : UInt8 := 0x1e
/-- Opcode of a notification. -/
def clpBleGattsNotify : UInt8 := 0x1f
/-- Opcode of a new value. -/
def clpBleGattsSetValue : UInt8 := 0x20
/-- Opcode of a value query. -/
def clpBleGattsGetValue : UInt8 := 0x21
/-- Opcode of an included service. -/
def clpBleGattsAddInclude : UInt8 := 0x22
/-- Opcode of the security configuration. -/
def clpBleSecurityConfig : UInt8 := 0x23
/-- Opcode of the subscription query. -/
def clpBleGattsSubscribed : UInt8 := 0x24

/-- Most data bytes of an attribute read. -/
def clpBleGattReadFrameMaxData : UInt32 := 32768

/-- Most data bytes of an attribute write. -/
def clpBleGattWriteFrameMaxData : ℕ := clpFrameMaxPayloadBytes-8

/-- Most data bytes of a notification. -/
def clpBleGattsFrameMaxData : ℕ := clpFrameMaxPayloadBytes-8

/-- Most bytes of a value of the server. -/
def clpBleGattsValueMaxBytes : ℕ := 512

/-- Bytes before the data of an event. -/
def clpBleEventHeaderBytes : ℕ := 12

/-- Most data bytes of an event. -/
def clpBleScanDataMaxBytes : ℕ := 31

/-- Longest advertised name. -/
def clpBleAdvNameMaxBytes : ℕ := 32

/-- Event type of no event. -/
def clpBleEventNone : UInt8 := 0
/-- Event type of a scan result. -/
def clpBleEventScanResult : UInt8 := 1
/-- Event type of a finished scan. -/
def clpBleEventScanComplete : UInt8 := 2
/-- Event type of received attribute data. -/
def clpBleEventGattData : UInt8 := 3
/-- Event type of a subscription. -/
def clpBleEventSubscribe : UInt8 := 8
/-- Event type of a write to the server. -/
def clpBleEventGattsWrite : UInt8 := 10
/-- Event type of a read from the server. -/
def clpBleEventGattsRead : UInt8 := 11

/-- Flag of the server: the UUID is a long one. -/
def clpBleGattsUuid128 : UInt32 := 0x01000000
/-- Flag of the server: a primary service. -/
def clpBleGattsPrimary : UInt32 := 0x00000002
/-- Flag of a readable characteristic. -/
def clpBleGattsChrRead : UInt32 := 0x00000001
/-- Flag of a writable characteristic. -/
def clpBleGattsChrWrite : UInt32 := 0x00000002
/-- Flag of a characteristic that is written without a response. -/
def clpBleGattsChrWriteNoRsp : UInt32 := 0x00000004
/-- Flag of a characteristic that notifies. -/
def clpBleGattsChrNotify : UInt32 := 0x00000008
/-- Subscription bits: notifications and indications. -/
def clpBleGattsSubscribedAny : UInt32 := 0x00000003

/-- Flag of an active connection. -/
def clpBleConnFlagConnected : UInt32 := 0x00000001
/-- Flag of an encrypted connection. -/
def clpBleConnFlagEncrypted : UInt32 := 0x00000002
/-- Flag of an authenticated connection. -/
def clpBleConnFlagAuthenticated : UInt32 := 0x00000004
/-- Flag of a bonded peer. -/
def clpBleConnFlagBonded : UInt32 := 0x00000008

/-- Flag of an active scan. -/
def clpBleScanFlagActive : UInt32 := 0x00000001

/-- The input and output capability with the greatest value. -/
def clBleIoCapsNoIo : UInt8 := 3

/-- The UUID of the device name. -/
def clBleUuidDeviceName : UInt16 := 0x2a00

/-- The UUID of the client configuration descriptor. -/
def clBleUuidCccd : UInt16 := 0x2902

/-- Client configuration: notify. -/
def clBleCccdNotify : UInt16 := 0x0001

/-- Client configuration: indicate. -/
def clBleCccdIndicate : UInt16 := 0x0002

/-- The code of the status of something that was not found. -/
def notFoundCode : ℤ := clClientStatusError clpStatusNotFound

/-- A long UUID. -/
def Uuid128 : Type := List.Vector UInt8 16

/-- The service of the game link. -/
def clBleLinkServiceUuid128 : Uuid128 :=
  ⟨[0x34,0x9b,0x5f,0x80,0,0,0x80,0,0,1,0,0,0,0,0,0],rfl⟩

/-- The characteristic that the peer writes. -/
def clBleLinkRxUuid128 : Uuid128 :=
  ⟨[0x34,0x9b,0x5f,0x80,0,0,0x80,0,0,1,0,0,0x10,0,0,0],rfl⟩

/-- The characteristic that notifies the peer. -/
def clBleLinkTxUuid128 : Uuid128 :=
  ⟨[0x34,0x9b,0x5f,0x80,0,0,0x80,0,0,1,0,0,0x20,0,0,0],rfl⟩

/-- The struct `cl_ble_addr_t`. -/
structure BleAddr where
  /-- The six bytes of the address. -/
  bytes : List.Vector UInt8 6
  /-- Type of the address. -/
  type : UInt8

/-- The struct `cl_ble_event_t`. -/
structure BleEvent where
  /-- Event type. -/
  type : UInt8
  /-- Signal strength. -/
  rssi : Int8
  /-- Type of the address. -/
  addrType : UInt8
  /-- The bytes of the address. -/
  addr : List UInt8
  /-- Event flags. -/
  flags : UInt16
  /-- Attribute of events that have one. -/
  attrHandle : UInt16
  /-- The valid data. -/
  data : List UInt8

/-- The struct `cl_ble_chr_t`. -/
structure BleChr where
  /-- Handle of the definition. -/
  defHandle : UInt16
  /-- Handle of the value. -/
  valueHandle : UInt16
  /-- Properties. -/
  properties : UInt8
  /-- Short UUID, only set by the full search. -/
  uuid16 : UInt16

/-- The struct `cl_ble_service_t`. -/
structure BleService where
  /-- First handle. -/
  startHandle : UInt16
  /-- Last handle. -/
  endHandle : UInt16
  /-- Short UUID. -/
  uuid16 : UInt16

/-- The struct `cl_ble_desc_t`. -/
structure BleDesc where
  /-- Handle of the descriptor. -/
  handle : UInt16
  /-- Short UUID. -/
  uuid16 : UInt16

/-- The struct `cl_ble_conn_info_t`. -/
structure BleConnInfo where
  /-- Connection flags. -/
  flags : UInt32
  /-- The connection is active. -/
  connected : Bool
  /-- It is encrypted. -/
  encrypted : Bool
  /-- It is authenticated. -/
  authenticated : Bool
  /-- The bond is stored. -/
  bonded : Bool
  /-- MTU of the connection. -/
  mtu : UInt16
  /-- Connection interval. -/
  intervalUs : UInt32
  /-- Latency in events. -/
  latency : UInt32
  /-- Supervision timeout. -/
  timeoutUs : UInt32
  /-- Signal strength. -/
  rssi : Int8
  /-- Type of the address. -/
  addrType : UInt8
  /-- The bytes of the address. -/
  addr : List UInt8

/-- The struct `cl_ble_security_config_t`. -/
structure BleSecurityConfig where
  /-- Input and output capability. -/
  ioCaps : UInt8
  /-- Security flags. -/
  flags : UInt8
  /-- Keys that are given. -/
  ourKeyDist : UInt8
  /-- Keys that are asked for. -/
  theirKeyDist : UInt8
  /-- Security level. -/
  securityLevel : UInt8

/-- The struct `cl_ble_adv_config_t`. -/
structure BleAdvConfig where
  /-- Duration, zero for no end. -/
  durationMs : UInt16
  /-- Appearance. -/
  appearance : UInt16
  /-- Advertising flags. -/
  flags : UInt32
  /-- Advertised short UUIDs. -/
  uuid16 : List UInt16
  /-- Advertised long UUIDs. -/
  uuid128 : List Uuid128
  /-- Name, if there is one. -/
  name : Option CString

/-- The roles of the game link as the caller may pass them. -/
inductive LinkRole where
  /-- Advertise and wait. -/
  | host
  /-- Scan and connect. -/
  | join
  /-- Any greater value. -/
  | other
deriving DecidableEq

/-- The fields of `cl_ble_t` that belong to the game link. -/
structure BleLink where
  /-- Role of this side. -/
  role : LinkRole
  /-- Attribute that notifies, on the joining side. -/
  notifyAttr : UInt16
  /-- Attribute to write, on the joining side. -/
  rxAttr : UInt16
  /-- Characteristic that notifies, on the host. -/
  txChr : UInt16

/-- Two half words in one word. -/
def halves (low high : UInt16) : UInt32 := low.toUInt32 ||| (high.toUInt32 <<< 16)

/-- The range of handles of a search, with its defaults. -/
def handleRange (startHandle endHandle : UInt16) : UInt32 :=
  halves (if startHandle=0 then 1 else startHandle) (if endHandle=0 then 0xffff else endHandle)

/-- The functions `cl_ble_build_gatt_find_chr16_request` and
`cl_ble_build_gatt_find_request`. -/
def clBleBuildGattFindRequest (handle startHandle endHandle uuid16 : UInt16) : List UInt8 :=
  le32 handle.toUInt32++le32 (handleRange startHandle endHandle)++le32 uuid16.toUInt32

/-- The function `cl_ble_build_gatt_find128_request`. -/
def clBleBuildGattFind128Request (handle startHandle endHandle : UInt16) (uuid128 : Uuid128) :
    List UInt8 :=
  le32 handle.toUInt32++le32 (handleRange startHandle endHandle)++uuid128.toList

/-- The function `cl_ble_parse_handle_response`. -/
def clBleParseHandleResponse (payload : List UInt8) : Except ℤ UInt16 :=
  let handle := (wordAt payload 0).toUInt16
  if handle=0 then .error (-3) else .ok handle

/-- The function `cl_ble_parse_gatt_find_chr16_response`. -/
def clBleParseGattFindChr16Response (payload : List UInt8) : Except ℤ BleChr :=
  let chr : BleChr :=
    { defHandle := (wordAt payload 0).toUInt16
      valueHandle := (wordAt payload 0 >>> 16).toUInt16
      properties := (wordAt payload 4).toUInt8
      uuid16 := 0 }
  if chr.valueHandle=0 then .error (-3) else .ok chr

/-- The function `cl_ble_parse_gatt_service_response`. -/
def clBleParseGattServiceResponse (payload : List UInt8) : Except ℤ BleService :=
  let service : BleService :=
    { startHandle := (wordAt payload 0).toUInt16
      endHandle := (wordAt payload 0 >>> 16).toUInt16
      uuid16 := (wordAt payload 4).toUInt16 }
  if service.startHandle=0 then .error (-3) else .ok service

/-- The function `cl_ble_parse_gatt_chr_response`. -/
def clBleParseGattChrResponse (payload : List UInt8) : Except ℤ BleChr :=
  (clBleParseGattFindChr16Response payload).map fun chr =>
    { chr with uuid16 := (wordAt payload 8).toUInt16 }

/-- The function `cl_ble_parse_gatt_desc_response`. -/
def clBleParseGattDescResponse (payload : List UInt8) : Except ℤ BleDesc :=
  let desc : BleDesc := ⟨(wordAt payload 0).toUInt16,(wordAt payload 4).toUInt16⟩
  if desc.handle=0 then .error (-3) else .ok desc

/-- Whether events of a type have an attribute. -/
def hasAttr (type : UInt8) : Bool :=
  type=clpBleEventGattData || type=clpBleEventGattsRead || type=clpBleEventGattsWrite ||
    type=clpBleEventSubscribe

/-- The function `cl_ble_parse_event_response`. -/
def clBleParseEventResponse (maxData : ℕ) (payloadLength : UInt32) (payload : List UInt8) :
    Except ℤ BleEvent :=
  let dataLength := (payload.getD 3 0).toNat
  if maxData<dataLength ∨ payloadLength.toNat≠clpBleEventHeaderBytes+dataLength then
    .error (-3)
  else
    .ok
      { type := payload.getD 0 0
        rssi := (payload.getD 1 0).toInt8
        addrType := payload.getD 2 0
        addr := (payload.drop 4).take 6
        flags := (loadLe32 ((payload.drop 10).take 2)).toUInt16
        attrHandle :=
          if hasAttr (payload.getD 0 0) then (loadLe32 ((payload.drop 4).take 2)).toUInt16
          else 0
        data := (payload.drop clpBleEventHeaderBytes).take dataLength }

/-- The function `cl_ble_parse_conn_info_response`. -/
def clBleParseConnInfoResponse (payload : List UInt8) : BleConnInfo :=
  let flags := wordAt payload 0
  { flags := flags
    connected := flags &&& clpBleConnFlagConnected≠0
    encrypted := flags &&& clpBleConnFlagEncrypted≠0
    authenticated := flags &&& clpBleConnFlagAuthenticated≠0
    bonded := flags &&& clpBleConnFlagBonded≠0
    mtu := (wordAt payload 4).toUInt16
    intervalUs := wordAt payload 8
    latency := wordAt payload 12
    timeoutUs := wordAt payload 16
    rssi := (wordAt payload 20).toUInt8.toInt8
    addrType := payload.getD 24 0
    addr := (payload.drop 25).take 6 }

/-- Whether one of the UUIDs of a list of long ones is this one. -/
def listsUuid128 (uuid : Uuid128) (bytes : List UInt8) : Bool :=
  (List.range (bytes.length/16)).any fun i => (bytes.drop (16*i)).take 16=uuid.toList

/-- The function `ble_adv_has_uuid128` on the valid data of an event. -/
def bleAdvHasUuid128 (uuid : Uuid128) : List UInt8 → Bool
  | [] => false
  | fieldLen::rest =>
    if fieldLen=0 ∨ rest.length<fieldLen.toNat then false
    else if ((rest.take fieldLen.toNat).headD 0=6 || (rest.take fieldLen.toNat).headD 0=7) &&
        listsUuid128 uuid ((rest.take fieldLen.toNat).drop 1) then true
    else bleAdvHasUuid128 uuid (rest.drop fieldLen.toNat)
termination_by bytes => bytes.length
decreasing_by
  rw [List.length_drop]
  exact Nat.lt_succ_of_le (Nat.sub_le _ _)

variable {δ α : Type}

/-- The function `cl_ble_scan_start`. -/
def clBleScanStart (ble : Peer δ) (durationMs : UInt16) : Prog (Link δ) (Except ℤ Unit) :=
  withScratch ble 4 (exchange ble clpChBle clpBleScanStart [le32 durationMs.toUInt32] statusOnly)

/-- The function `cl_ble_scan_stop`. -/
def clBleScanStop (ble : Peer δ) : Prog (Link δ) (Except ℤ Unit) :=
  exchange ble clpChBle clpBleScanStop [] statusOnly

/-- The function `cl_ble_connect`. -/
def clBleConnect (ble : Peer δ) (addr : BleAddr) : Prog (Link δ) (Except ℤ UInt16) :=
  withScratch ble 8
    (exchange ble clpChBle clpBleConnect [addr.bytes.toList++[addr.type,0]]
      (expectExact ble 4 clBleParseHandleResponse))

/-- The function `cl_ble_disconnect`. -/
def clBleDisconnect (ble : Peer δ) (handle : UInt16) : Prog (Link δ) (Except ℤ Unit) :=
  if handle=0 then refuse (-1)
  else
    withScratch ble 4
      (exchange ble clpChBle clpBleDisconnect [le32 handle.toUInt32] statusOnly)

/-- The function `cl_ble_gatt_find_chr16`. -/
def clBleGattFindChr16 (ble : Peer δ) (handle startHandle endHandle uuid16 : UInt16) :
    Prog (Link δ) (Except ℤ BleChr) :=
  if handle=0 ∨ uuid16=0 then refuse (-1)
  else if (if endHandle=0 then 0xffff else endHandle)<
      (if startHandle=0 then 1 else startHandle) then refuse (-1)
  else
    withScratch ble 12
      (exchange ble clpChBle clpBleGattFindChr16
        [clBleBuildGattFindRequest handle startHandle endHandle uuid16]
        (expectExact ble 8 clBleParseGattFindChr16Response))

/-- The function `cl_ble_gatt_find_service`. -/
def clBleGattFindService (ble : Peer δ) (handle startHandle endHandle uuid16 : UInt16) :
    Prog (Link δ) (Except ℤ BleService) :=
  if handle=0 then refuse (-1)
  else
    withScratch ble 12
      (exchange ble clpChBle clpBleGattFindService
        [clBleBuildGattFindRequest handle startHandle endHandle uuid16]
        (expectExact ble 8 clBleParseGattServiceResponse))

/-- The function `cl_ble_gatt_find_chr`. -/
def clBleGattFindChr (ble : Peer δ) (handle startHandle endHandle uuid16 : UInt16) :
    Prog (Link δ) (Except ℤ BleChr) :=
  if handle=0 then refuse (-1)
  else
    withScratch ble 12
      (exchange ble clpChBle clpBleGattFindChr
        [clBleBuildGattFindRequest handle startHandle endHandle uuid16]
        (expectExact ble 12 clBleParseGattChrResponse))

/-- The function `cl_ble_gatt_find_desc`. -/
def clBleGattFindDesc (ble : Peer δ) (handle chrValueHandle endHandle uuid16 : UInt16) :
    Prog (Link δ) (Except ℤ BleDesc) :=
  if handle=0 then refuse (-1)
  else
    withScratch ble 12
      (exchange ble clpChBle clpBleGattFindDesc
        [clBleBuildGattFindRequest handle chrValueHandle endHandle uuid16]
        (expectExact ble 8 clBleParseGattDescResponse))

/-- The function `cl_ble_gatt_read`. -/
def clBleGattRead (ble : Peer δ) (handle attr : UInt16) (capacity : UInt32) :
    Prog (Link δ) (Except ℤ (List UInt8)) :=
  if handle=0 then refuse (-1)
  else
    withScratch ble 12
      (exchange ble clpChBle clpBleGattRead
        [le32 handle.toUInt32++le32 attr.toUInt32++
          le32 (min capacity clpBleGattReadFrameMaxData)]
        (expectWithin ble 0 (min capacity clpBleGattReadFrameMaxData) fun _ payload =>
          .ok payload))

/-- The function `cl_ble_gatt_write`: the bytes written. -/
def clBleGattWrite (ble : Peer δ) (handle attr : UInt16) (data : List UInt8) :
    Prog (Link δ) (Except ℤ ℕ) :=
  if handle=0 ∨ clpBleGattWriteFrameMaxData<data.length then refuse (-1)
  else
    withScratch ble 8
      (exchange ble clpChBle clpBleGattWrite
        [le32 handle.toUInt32++le32 attr.toUInt32,data]
        (expectExact ble 4 fun payload => countOf (wordAt payload 0)))

/-- The function `cl_ble_gatt_notify`. -/
def clBleGattNotify (ble : Peer δ) (handle attr : UInt16) (enable : Bool) :
    Prog (Link δ) (Except ℤ Unit) :=
  if handle=0 ∨ attr=0 then refuse (-1)
  else
    withScratch ble 12
      (exchange ble clpChBle clpBleGattNotify
        [le32 handle.toUInt32++le32 attr.toUInt32++le32 (if enable then 1 else 0)] statusOnly)

/-- The value of the client configuration. -/
def cccdOf (enable indicate : Bool) : UInt16 :=
  if enable then (if indicate then clBleCccdIndicate else clBleCccdNotify) else 0

/-- The function `cl_ble_gatt_subscribe`. -/
def clBleGattSubscribe (ble : Peer δ) (handle valueHandle endHandle : UInt16)
    (enable indicate : Bool) : Prog (Link δ) (Except ℤ Unit) :=
  if handle=0 ∨ valueHandle=0 then refuse (-1)
  else if (if endHandle=0 then 0xffff else endHandle)≤valueHandle then refuse (-1)
  else
    andThen (clBleGattFindDesc ble handle valueHandle
        (if endHandle=0 then 0xffff else endHandle) clBleUuidCccd) fun desc =>
      andThen (clBleGattWrite ble handle desc.handle (le16 (cccdOf enable indicate)))
        fun written =>
          if written≠2 then refuse (-3)
          else clBleGattNotify ble handle valueHandle enable

/-- The search of `cl_ble_gatt_subscribe_chr16` for the range of a service. -/
def serviceRange (ble : Peer δ) (handle serviceUuid16 : UInt16) :
    Prog (Link δ) (Except ℤ (UInt16×UInt16)) :=
  if serviceUuid16=0 then pure (.ok (1,0xffff))
  else
    andThen (clBleGattFindService ble handle 1 0xffff serviceUuid16) fun service =>
      pure (.ok (service.startHandle,service.endHandle))

/-- The function `cl_ble_gatt_subscribe_chr16`. -/
def clBleGattSubscribeChr16 (ble : Peer δ) (handle serviceUuid16 chrUuid16 : UInt16)
    (enable indicate : Bool) : Prog (Link δ) (Except ℤ BleChr) :=
  if handle=0 ∨ chrUuid16=0 then refuse (-1)
  else
    andThen (serviceRange ble handle serviceUuid16) fun range =>
      andThen (clBleGattFindChr16 ble handle range.1 range.2 chrUuid16) fun chr =>
        andThen (clBleGattSubscribe ble handle chr.valueHandle range.2 enable indicate) fun _ =>
          pure (.ok chr)

/-- The function `cl_ble_event_next`. -/
def clBleEventNext (ble : Peer δ) (maxData : ℕ) : Prog (Link δ) (Except ℤ BleEvent) :=
  if clpBleScanDataMaxBytes< maxData then refuse (-1)
  else
    withScratch ble (clpBleEventHeaderBytes+maxData)
      (exchange ble clpChBle clpBleEventNext [le32 (UInt32.ofNat maxData)]
        (expectWithin ble (UInt32.ofNat clpBleEventHeaderBytes)
          (UInt32.ofNat (clpBleEventHeaderBytes+maxData)) (clBleParseEventResponse maxData)))

/-- Work on a connection that is closed afterwards. -/
def onConnection (ble : Peer δ) (addr : BleAddr)
    (run : UInt16 → Prog (Link δ) (Except ℤ α)) : Prog (Link δ) (Except ℤ α) :=
  andThen (clBleConnect ble addr) fun handle =>
    andFinally (run handle) (clBleDisconnect ble handle)

/-- Printable characters of a name. -/
def printable (bytes : List UInt8) : List UInt8 :=
  bytes.map fun ch => if 0x20≤ ch ∧ ch<0x7f then ch else 46

/-- The function `cl_ble_probe_device_name`: the bytes read and the name stored. -/
def clBleProbeDeviceName (ble : Peer δ) (addr : BleAddr) (outSize : ℕ) :
    Prog (Link δ) (Except ℤ (ℕ×List UInt8)) :=
  if outSize=0 then refuse (-1)
  else
    onConnection ble addr fun handle =>
      andThen (clBleGattFindChr16 ble handle 1 0xffff clBleUuidDeviceName) fun chr =>
        withScratch ble 32
          (andThen (clBleGattRead ble handle chr.valueHandle 32) fun raw =>
            pure (.ok (raw.length,printable (raw.take (outSize-1)))))

/-- The function `cl_ble_read_chr16`. -/
def clBleReadChr16 (ble : Peer δ) (addr : BleAddr) (uuid16 : UInt16) (capacity : UInt32) :
    Prog (Link δ) (Except ℤ (List UInt8)) :=
  if uuid16=0 then refuse (-1)
  else
    onConnection ble addr fun handle =>
      andThen (clBleGattFindChr16 ble handle 1 0xffff uuid16) fun chr =>
        clBleGattRead ble handle chr.valueHandle capacity

/-- The function `cl_ble_write_chr16`. -/
def clBleWriteChr16 (ble : Peer δ) (addr : BleAddr) (uuid16 : UInt16) (data : List UInt8) :
    Prog (Link δ) (Except ℤ ℕ) :=
  if uuid16=0 then refuse (-1)
  else
    onConnection ble addr fun handle =>
      andThen (clBleGattFindChr16 ble handle 1 0xffff uuid16) fun chr =>
        clBleGattWrite ble handle chr.valueHandle data

/-- Subscribe through the descriptor, or by the notification switch if there is none. -/
def subscribeOrNotify (ble : Peer δ) (handle valueHandle : UInt16) (enable : Bool) :
    Prog (Link δ) (Except ℤ Unit) := do
  let result ← clBleGattSubscribe ble handle valueHandle 0xffff enable false
  match result with
  | .error code =>
    if code=notFoundCode then clBleGattNotify ble handle valueHandle enable
    else pure (.error code)
  | .ok _ => pure (.ok ())

/-- Keep an event if there is room for it. -/
def keepEvent (capacity : ℕ) (events : List BleEvent) (event : BleEvent) : List BleEvent :=
  if events.length<capacity then events++[event] else events

/-- The polling loop of `cl_ble_collect_notify_chr16`. -/
def collectNotifications (ble : Peer δ) (valueHandle : UInt16) (capacity : ℕ) :
    ℕ → List BleEvent → Prog (Link δ) (Except ℤ (List BleEvent))
  | 0,events => pure (.ok events)
  | attempts+1,events => do
    let next ← clBleEventNext ble clpBleScanDataMaxBytes
    match next with
    | .error code =>
      if code=notFoundCode then collectNotifications ble valueHandle capacity attempts events
      else pure (.error code)
    | .ok event =>
      collectNotifications ble valueHandle capacity attempts
        (if event.type=clpBleEventGattData ∧ event.attrHandle=valueHandle then
          keepEvent capacity events event
        else events)

/-- The function `cl_ble_collect_notify_chr16`. -/
def clBleCollectNotifyChr16 (ble : Peer δ) (addr : BleAddr) (uuid16 : UInt16) (capacity : ℕ)
    (pollAttempts : UInt32) : Prog (Link δ) (Except ℤ (List BleEvent)) :=
  if uuid16=0 then refuse (-1)
  else
    onConnection ble addr fun handle =>
      andThen (clBleGattFindChr16 ble handle 1 0xffff uuid16) fun chr =>
        andThen (subscribeOrNotify ble handle chr.valueHandle true) fun _ =>
          andFinally (collectNotifications ble chr.valueHandle capacity pollAttempts.toNat [])
            (subscribeOrNotify ble handle chr.valueHandle false)

/-- The polling loop of `cl_ble_scan_collect`. -/
def collectScan (ble : Peer δ) (capacity : ℕ) :
    ℕ → List BleEvent → Prog (Link δ) (Except ℤ (List BleEvent))
  | 0,events => pure (.ok events)
  | attempts+1,events => do
    let next ← clBleEventNext ble clpBleScanDataMaxBytes
    match next with
    | .error code =>
      if code=notFoundCode then collectScan ble capacity attempts events
      else pure (.error code)
    | .ok event =>
      if event.type=clpBleEventScanComplete then pure (.ok events)
      else
        collectScan ble capacity attempts
          (if event.type=clpBleEventScanResult then keepEvent capacity events event
          else events)

/-- The function `cl_ble_scan_collect`. -/
def clBleScanCollect (ble : Peer δ) (durationMs : UInt16) (capacity : ℕ)
    (pollAttempts : UInt32) : Prog (Link δ) (Except ℤ (List BleEvent)) :=
  andThen (clBleScanStart ble durationMs) fun _ =>
    andFinally (collectScan ble capacity pollAttempts.toNat []) (clBleScanStop ble)

/-- The function `cl_ble_gatt_find_service128`. -/
def clBleGattFindService128 (ble : Peer δ) (handle startHandle endHandle : UInt16)
    (uuid128 : Uuid128) : Prog (Link δ) (Except ℤ BleService) :=
  withScratch ble 24
    (exchange ble clpChBle clpBleGattFindService128
      [clBleBuildGattFind128Request handle startHandle endHandle uuid128]
      (expectExact ble 8 clBleParseGattServiceResponse))

/-- The function `cl_ble_gatt_find_chr128`. -/
def clBleGattFindChr128 (ble : Peer δ) (handle startHandle endHandle : UInt16)
    (uuid128 : Uuid128) : Prog (Link δ) (Except ℤ BleChr) :=
  withScratch ble 24
    (exchange ble clpChBle clpBleGattFindChr128
      [clBleBuildGattFind128Request handle startHandle endHandle uuid128]
      (expectExact ble 12 clBleParseGattChrResponse))

/-- The function `cl_ble_gatt_find_desc128`. -/
def clBleGattFindDesc128 (ble : Peer δ) (handle chrValueHandle endHandle : UInt16)
    (uuid128 : Uuid128) : Prog (Link δ) (Except ℤ BleDesc) :=
  withScratch ble 24
    (exchange ble clpChBle clpBleGattFindDesc128
      [clBleBuildGattFind128Request handle chrValueHandle endHandle uuid128]
      (expectExact ble 8 clBleParseGattDescResponse))

/-- The function `cl_ble_scan_start_ex`, with the opcode of the plain scan and a
longer request. -/
def clBleScanStartEx (ble : Peer δ) (durationMs intervalUs windowUs : UInt16)
    (flags : UInt32) : Prog (Link δ) (Except ℤ Unit) :=
  withScratch ble 16
    (exchange ble clpChBle clpBleScanStart
      [le32 durationMs.toUInt32++le32 intervalUs.toUInt32++le32 windowUs.toUInt32++le32 flags]
      (expectAck ble))

/-- The function `cl_ble_conn_update`. -/
def clBleConnUpdate (ble : Peer δ) (handle intervalMin intervalMax latency timeout : UInt16) :
    Prog (Link δ) (Except ℤ Unit) :=
  if handle=0 then refuse (-1)
  else
    withScratch ble 12
      (exchange ble clpChBle clpBleConnUpdate
        [le32 handle.toUInt32++le32 (halves intervalMin intervalMax)++
          le32 (halves latency timeout)] (expectAck ble))

/-- The function `cl_ble_exchange_mtu`. -/
def clBleExchangeMtu (ble : Peer δ) (handle : UInt16) : Prog (Link δ) (Except ℤ UInt16) :=
  if handle=0 then refuse (-1)
  else
    withScratch ble 6
      (exchange ble clpChBle clpBleExchangeMtu [le32 handle.toUInt32++le16 256]
        (expectExact ble 4 fun payload => .ok (wordAt payload 0).toUInt16))

/-- The function `cl_ble_conn_info`. The answer is longer than the scratch buffer
that is asked for; memory past its end is not part of the model. -/
def clBleConnInfo (ble : Peer δ) (handle : UInt16) : Prog (Link δ) (Except ℤ BleConnInfo) :=
  if handle=0 then refuse (-1)
  else
    withScratch ble 4
      (exchange ble clpChBle clpBleConnInfo [le32 handle.toUInt32]
        (expectExact ble 32 fun payload => .ok (clBleParseConnInfoResponse payload)))

/-- The function `cl_ble_is_connected`. -/
def clBleIsConnected (ble : Peer δ) (handle : UInt16) : Prog (Link δ) (Except ℤ Bool) := do
  let info ← clBleConnInfo ble handle
  match info with
  | .error _ => pure (.ok false)
  | .ok info => pure (.ok info.connected)

/-- The function `cl_ble_gatt_read_long`. -/
def clBleGattReadLong (ble : Peer δ) (handle attr offset : UInt16) (capacity : UInt32) :
    Prog (Link δ) (Except ℤ (List UInt8)) :=
  if handle=0 then refuse (-1)
  else
    withScratch ble 12
      (exchange ble clpChBle clpBleGattReadLong
        [le32 handle.toUInt32++le32 (halves attr offset)++
          le32 (min capacity clpBleGattReadFrameMaxData)]
        (expectWithin ble 0 (min capacity clpBleGattReadFrameMaxData) fun _ payload =>
          .ok payload))

/-- A result word as an `int`, without a check. -/
def intOf (payload : List UInt8) : Except ℤ ℤ := .ok (wordAt payload 0).toBitVec.toInt

/-- The function `cl_ble_gatt_write_long`. -/
def clBleGattWriteLong (ble : Peer δ) (handle attr offset : UInt16) (data : List UInt8) :
    Prog (Link δ) (Except ℤ ℤ) :=
  if handle=0 ∨ clpBleGattWriteFrameMaxData<data.length then refuse (-1)
  else
    withScratch ble 8
      (exchange ble clpChBle clpBleGattWriteLong
        [le32 handle.toUInt32++le32 (halves attr offset),data] (expectExact ble 4 intOf))

/-- The checks of `cl_ble_security_config`. -/
def securityConfigValid (config : BleSecurityConfig) : Bool :=
  config.ioCaps≤ clBleIoCapsNoIo && config.securityLevel≤4 && config.flags &&& ~~~0x0f=0 &&
    config.ourKeyDist &&& ~~~0x03=0 && config.theirKeyDist &&& ~~~0x03=0

/-- The function `cl_ble_security_config`. -/
def clBleSecurityConfig (ble : Peer δ) (config : BleSecurityConfig) :
    Prog (Link δ) (Except ℤ Unit) :=
  if securityConfigValid config=false then refuse (-1)
  else
    withScratch ble 8
      (exchange ble clpChBle clpBleSecurityConfig
        [[config.ioCaps,config.flags,config.ourKeyDist,config.theirKeyDist,
          config.securityLevel,0,0,0]] (expectAck ble))

/-- The function `cl_ble_pair`. -/
def clBlePair (ble : Peer δ) (handle : UInt16) (ioCaps bond : UInt8) :
    Prog (Link δ) (Except ℤ Unit) :=
  if handle=0 ∨ clBleIoCapsNoIo< ioCaps then refuse (-1)
  else
    withScratch ble 6
      (exchange ble clpChBle clpBlePair [le32 handle.toUInt32++[ioCaps,bond]] (expectAck ble))

/-- The function `cl_ble_passkey_reply`. -/
def clBlePasskeyReply (ble : Peer δ) (handle : UInt16) (passkey : UInt32) :
    Prog (Link δ) (Except ℤ Unit) :=
  if handle=0 then refuse (-1)
  else
    withScratch ble 8
      (exchange ble clpChBle clpBlePasskeyReply [le32 handle.toUInt32++le32 passkey]
        (expectAck ble))

/-- The function `ble_read_id_response`. -/
def bleReadIdResponse (ble : Peer δ) : ClpHeader → Prog (Link δ) (Except ℤ UInt16) :=
  expectExact ble 4 fun payload => .ok (wordAt payload 0).toUInt16

/-- The function `ble_gatts_add_service`; a long UUID is given with its flag. -/
def bleGattsAddService (ble : Peer δ) (flags : UInt32) (uuid16 : UInt16)
    (uuid128 : Option Uuid128) : Prog (Link δ) (Except ℤ UInt16) :=
  let tail := if flags &&& clpBleGattsUuid128=0 then some []
    else uuid128.map fun uuid => uuid.toList
  match tail with
  | none => refuse (-1)
  | some tail =>
    withScratch ble (8+tail.length)
      (exchange ble clpChBle clpBleGattsAddService
        [le32 flags++le16At ble 4 uuid16++tail] (bleReadIdResponse ble))

/-- The function `cl_ble_gatts_reset`. -/
def clBleGattsReset (ble : Peer δ) : Prog (Link δ) (Except ℤ Unit) :=
  exchange ble clpChBle clpBleGattsReset [] (expectAck ble)

/-- The function `cl_ble_gatts_add_service16`. -/
def clBleGattsAddService16 (ble : Peer δ) (uuid16 : UInt16) (flags : UInt32) :
    Prog (Link δ) (Except ℤ UInt16) :=
  bleGattsAddService ble ((flags &&& ~~~clpBleGattsUuid128) ||| clpBleGattsPrimary) uuid16 none

/-- The function `cl_ble_gatts_add_service128`. -/
def clBleGattsAddService128 (ble : Peer δ) (uuid128 : Uuid128) (flags : UInt32) :
    Prog (Link δ) (Except ℤ UInt16) :=
  bleGattsAddService ble (flags ||| clpBleGattsUuid128 ||| clpBleGattsPrimary) 0 (some uuid128)

/-- The function `cl_ble_gatts_add_include`. -/
def clBleGattsAddInclude (ble : Peer δ) (service includedService : UInt16) :
    Prog (Link δ) (Except ℤ Unit) :=
  if service=0 ∨ includedService=0 then refuse (-1)
  else
    withScratch ble 4
      (exchange ble clpChBle clpBleGattsAddInclude [le16 service++le16 includedService]
        (expectAck ble))

/-- The function `ble_gatts_add_attr`; a long UUID is given with its flag. -/
def bleGattsAddAttr (ble : Peer δ) (opcode : UInt8) (parent : UInt16) (flags : UInt32)
    (uuid16 : UInt16) (uuid128 : Option Uuid128) (value : List UInt8) :
    Prog (Link δ) (Except ℤ UInt16) :=
  if clpBleGattsValueMaxBytes<value.length then refuse (-1)
  else
    let uuid := if flags &&& clpBleGattsUuid128=0 then some []
      else uuid128.map fun uuid => [uuid.toList]
    match uuid with
    | none => refuse (-1)
    | some uuid =>
      withScratch ble 16
        (exchange ble clpChBle opcode
          ([le16At ble 0 parent++le32 flags++le16At ble 8 uuid16++
            le32 (UInt32.ofNat value.length)]++uuid++(if value=[] then [] else [value]))
          (bleReadIdResponse ble))

/-- The function `cl_ble_gatts_add_chr16`. -/
def clBleGattsAddChr16 (ble : Peer δ) (service uuid16 : UInt16) (flags : UInt32)
    (value : List UInt8) : Prog (Link δ) (Except ℤ UInt16) :=
  bleGattsAddAttr ble clpBleGattsAddChr service (flags &&& ~~~clpBleGattsUuid128) uuid16 none
    value

/-- The function `cl_ble_gatts_add_chr128`. -/
def clBleGattsAddChr128 (ble : Peer δ) (service : UInt16) (uuid128 : Uuid128)
    (flags : UInt32) (value : List UInt8) : Prog (Link δ) (Except ℤ UInt16) :=
  bleGattsAddAttr ble clpBleGattsAddChr service (flags ||| clpBleGattsUuid128) 0
    (some uuid128) value

/-- The function `cl_ble_gatts_add_desc16`. -/
def clBleGattsAddDesc16 (ble : Peer δ) (chr uuid16 : UInt16) (flags : UInt32)
    (value : List UInt8) : Prog (Link δ) (Except ℤ UInt16) :=
  bleGattsAddAttr ble clpBleGattsAddDesc chr (flags &&& ~~~clpBleGattsUuid128) uuid16 none value

/-- The function `cl_ble_gatts_add_desc128`. -/
def clBleGattsAddDesc128 (ble : Peer δ) (chr : UInt16) (uuid128 : Uuid128)
    (flags : UInt32) (value : List UInt8) : Prog (Link δ) (Except ℤ UInt16) :=
  bleGattsAddAttr ble clpBleGattsAddDesc chr (flags ||| clpBleGattsUuid128) 0 (some uuid128)
    value

/-- The function `cl_ble_gatts_start`. -/
def clBleGattsStart (ble : Peer δ) : Prog (Link δ) (Except ℤ Unit) :=
  exchange ble clpChBle clpBleGattsStart [] (expectAck ble)

/-- The function `cl_ble_gatts_stop`. -/
def clBleGattsStop (ble : Peer δ) : Prog (Link δ) (Except ℤ Unit) :=
  exchange ble clpChBle clpBleGattsStop [] (expectAck ble)

/-- The request of `cl_ble_adv_start`. -/
def advRequest (config : BleAdvConfig) (name : List UInt8) : List UInt8 :=
  le32 config.durationMs.toUInt32++le32 config.flags++le16 config.appearance++
    [UInt8.ofNat config.uuid16.length,UInt8.ofNat config.uuid128.length]++
    config.uuid16.flatMap le16++(config.uuid128.flatMap fun uuid => uuid.toList)++name

/-- The function `cl_ble_adv_start`. -/
def clBleAdvStart (ble : Peer δ) (config : BleAdvConfig) : Prog (Link δ) (Except ℤ Unit) :=
  let name := (config.name.map fun text => text.1).getD []
  if 4<config.uuid16.length ∨ 2<config.uuid128.length ∨
      clpBleAdvNameMaxBytes<name.length then refuse (-1)
  else
    withScratch ble (12+config.uuid16.length*2+config.uuid128.length*16+name.length)
      (exchange ble clpChBle clpBleAdvStart [advRequest config name] (expectAck ble))

/-- The function `cl_ble_adv_stop`. -/
def clBleAdvStop (ble : Peer δ) : Prog (Link δ) (Except ℤ Unit) :=
  exchange ble clpChBle clpBleAdvStop [] (expectAck ble)

/-- A request of a fixed part and data, if there is any. -/
def withData (fixed data : List UInt8) : List (List UInt8) :=
  if data=[] then [fixed] else [fixed,data]

/-- The function `cl_ble_gatts_notify`. -/
def clBleGattsNotify (ble : Peer δ) (handle chr : UInt16) (data : List UInt8) :
    Prog (Link δ) (Except ℤ ℤ) :=
  if clpBleGattsFrameMaxData<data.length then refuse (-1)
  else
    withScratch ble 8
      (exchange ble clpChBle clpBleGattsNotify
        (withData (le16At ble 0 handle++le16At ble 4 chr) data) (expectExact ble 4 intOf))

/-- The function `cl_ble_gatts_set_value`. -/
def clBleGattsSetValue (ble : Peer δ) (attr : UInt16) (data : List UInt8) :
    Prog (Link δ) (Except ℤ Unit) :=
  if clpBleGattsValueMaxBytes<data.length then refuse (-1)
  else
    withScratch ble 8
      (exchange ble clpChBle clpBleGattsSetValue
        (withData (le16At ble 0 attr++le32 (UInt32.ofNat data.length)) data) (expectAck ble))

/-- The function `cl_ble_gatts_get_value`. -/
def clBleGattsGetValue (ble : Peer δ) (attr offset : UInt16) (capacity : UInt32) :
    Prog (Link δ) (Except ℤ (List UInt8)) :=
  withScratch ble 8
    (exchange ble clpChBle clpBleGattsGetValue
      [le16 attr++le16 offset++
        le32 (min capacity (UInt32.ofNat clpBleGattsValueMaxBytes))]
      (expectWithin ble 0 (min capacity (UInt32.ofNat clpBleGattsValueMaxBytes))
        fun _ payload => .ok payload))

/-- The function `cl_ble_gatts_subscribed`. -/
def clBleGattsSubscribed (ble : Peer δ) (handle chr : UInt16) : Prog (Link δ) (Except ℤ Bool) :=
  if handle=0 ∨ chr=0 then refuse (-1)
  else
    withScratch ble 8
      (exchange ble clpChBle clpBleGattsSubscribed [le16At ble 0 handle++le16At ble 4 chr]
        (expectExact ble 4 fun payload =>
          .ok (wordAt payload 0 &&& clpBleGattsSubscribedAny≠0)))

/-- The services of the host of a game link: the characteristic that notifies. -/
def hostServices (ble : Peer δ) : Prog (Link δ) (Except ℤ UInt16) :=
  andThen (clBleGattsReset ble) fun _ =>
    andThen (clBleGattsAddService128 ble clBleLinkServiceUuid128 clpBleGattsPrimary)
      fun svc =>
        andThen (clBleGattsAddChr128 ble svc clBleLinkRxUuid128
            (clpBleGattsChrWrite ||| clpBleGattsChrWriteNoRsp) []) fun _ =>
          andThen (clBleGattsAddChr128 ble svc clBleLinkTxUuid128
              (clpBleGattsChrNotify ||| clpBleGattsChrRead) []) fun tx =>
            andThen (clBleGattsStart ble) fun _ => pure (.ok tx)

/-- The loop of `cl_ble_link_start` that looks for a peer. -/
def findPeer (ble : Peer δ) : ℕ → Prog (Link δ) (Option (List UInt8×UInt8))
  | 0 => pure none
  | attempts+1 => do
    let next ← clBleEventNext ble clpBleScanDataMaxBytes
    match next with
    | .error _ => pure none
    | .ok event =>
      if event.type=clpBleEventScanResult ∧
          bleAdvHasUuid128 clBleLinkServiceUuid128 event.data=true then
        pure (some (event.addr,event.addrType))
      else if event.type=clpBleEventScanComplete then pure none
      else findPeer ble attempts

/-- An address with the bytes that an event gave, filled up to six. -/
def addrOf (bytes : List UInt8) (type : UInt8) : BleAddr :=
  ⟨⟨(bytes++List.replicate 6 0).take 6,by simp⟩,type⟩

/-- Drop a connection after an error. -/
def dropConnection (ble : Peer δ) (handle : UInt16) (code : ℤ) (link : BleLink) :
    Prog (Link δ) (Except ℤ ℕ×BleLink) := do
  let _ ← clBleDisconnect ble handle
  pure (.error code,link)

/-- What the joining side does on its connection. -/
def joinOn (ble : Peer δ) (handle : UInt16) (link : BleLink) :
    Prog (Link δ) (Except ℤ ℕ×BleLink) := do
  let service ← clBleGattFindService128 ble handle 1 0xffff clBleLinkServiceUuid128
  match service with
  | .error code => dropConnection ble handle code link
  | .ok service => do
    let rx ← clBleGattFindChr128 ble handle service.startHandle service.endHandle
      clBleLinkRxUuid128
    match rx with
    | .error code => dropConnection ble handle code link
    | .ok rx => do
      let link := { link with rxAttr := rx.valueHandle }
      let tx ← clBleGattFindChr128 ble handle service.startHandle service.endHandle
        clBleLinkTxUuid128
      match tx with
      | .error code => dropConnection ble handle code link
      | .ok tx => do
        let subscribed ← clBleGattSubscribe ble handle tx.valueHandle 0xffff true false
        match subscribed with
        | .error code => dropConnection ble handle code link
        | .ok _ => pure (.ok handle.toNat,{ link with notifyAttr := tx.valueHandle })

/-- The joining side of `cl_ble_link_start`. -/
def linkJoin (ble : Peer δ) (link : BleLink) : Prog (Link δ) (Except ℤ ℕ×BleLink) := do
  let scanning ← clBleScanStartEx ble 3000 0 0 clpBleScanFlagActive
  match scanning with
  | .error code => pure (.error code,link)
  | .ok _ => do
    let found ← findPeer ble 600
    let _ ← clBleScanStop ble
    match found with
    | none => pure (.error (-3),link)
    | some (bytes,type) => do
      let connected ← clBleConnect ble (addrOf bytes type)
      match connected with
      | .error code => pure (.error code,link)
      | .ok handle => joinOn ble handle link

/-- The hosting side of `cl_ble_link_start`. -/
def linkHost (ble : Peer δ) (name : CString) (link : BleLink) :
    Prog (Link δ) (Except ℤ ℕ×BleLink) := do
  let services ← hostServices ble
  match services with
  | .error code => pure (.error code,link)
  | .ok tx => do
    let link := { link with txChr := tx }
    let advertised ← clBleAdvStart ble
      ⟨0,0,0,[],[clBleLinkServiceUuid128],some name⟩
    match advertised with
    | .error code => pure (.error code,link)
    | .ok _ => pure (.ok 0,link)

/-- The function `cl_ble_link_start`. -/
def clBleLinkStart (ble : Peer δ) (link : BleLink) (role : LinkRole) (name : CString) :
    Prog (Link δ) (Except ℤ ℕ×BleLink) :=
  if name.1=[] then pure (.error (-1),link)
  else
    match role with
    | .host => linkHost ble name ⟨.host,0,0,0⟩
    | .join => linkJoin ble ⟨.join,0,0,0⟩
    | .other => pure (.error (-1),link)

/-- The function `cl_ble_link_stop`. -/
def clBleLinkStop (ble : Peer δ) (link : BleLink) (handle : UInt16) :
    Prog (Link δ) (Except ℤ ℕ×BleLink) := do
  let _ ← if handle≠0 then clBleDisconnect ble handle else pure (.ok ())
  let _ ← clBleAdvStop ble
  let _ ← clBleGattsStop ble
  pure (.ok 0,{ link with notifyAttr := 0, rxAttr := 0, txChr := 0 })

/-- The function `cl_ble_link_send`. -/
def clBleLinkSend (ble : Peer δ) (link : BleLink) (handle : UInt16) (data : List UInt8) :
    Prog (Link δ) (Except ℤ ℤ) :=
  if handle=0 then refuse (-1)
  else if link.role=.host ∧ link.txChr≠0 then clBleGattsNotify ble handle link.txChr data
  else if link.rxAttr≠0 then
    andThen (clBleGattWrite ble handle link.rxAttr data) fun written => pure (.ok written)
  else refuse (-1)

/-- What `cl_ble_link_peer_ready` makes of an event. -/
def peerReady (link : BleLink) (handle : UInt16) (event : BleEvent) : ℕ :=
  if event.type≠clpBleEventSubscribe then 0
  else if link.txChr≠0 ∧ event.attrHandle≠link.txChr then 0
  else if event.data.headD 0=0 then 0
  else
    let peerHandle := (loadLe32 ((event.data.drop 1).take 2)).toUInt16
    if 3≤event.data.length ∧ peerHandle≠0 then peerHandle.toNat
    else if handle≠0 then handle.toNat
    else 1

/-- The function `cl_ble_link_peer_ready`. -/
def clBleLinkPeerReady (ble : Peer δ) (link : BleLink) (handle : UInt16) :
    Prog (Link δ) (Except ℤ ℕ) :=
  andThen (clBleEventNext ble clpBleScanDataMaxBytes) fun event =>
    pure (.ok (peerReady link handle event))

end ChisLink.BleClient
