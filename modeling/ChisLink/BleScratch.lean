import ChisLink.ClientBoundary

/-!
# The scratch buffer of the Bluetooth client

Requests are built at the start of the scratch buffer and answers are read to the same
place. The operations are given again with the bytes of the buffer that they touch;
what they exchange and return is what they do without this record. An operation first
asks for as many bytes as it declares. An information about a connection is longer than
the request for which it asks.
-/

namespace ChisLink.BleScratch

open DriverPrograms WireProtocol StorageClient StorageBoundary WireCommands ClientExchange
  BleClient ClientBoundary

variable {δ α β : Type}

/-- A client with the ends of the parts of its scratch buffer that were touched, each
from the start of the buffer on. -/
structure Scratched (δ : Type) where
  /-- The client with its device. -/
  link : Link δ
  /-- Ends of the accesses, in order. -/
  touched : List ℕ

/-- A step of the client that leaves the scratch buffer alone. -/
def onLink (p : Prog (Link δ) α) : Prog (Scratched δ) α := fun s =>
  ((p s.link).1,{s with link := (p s.link).2})

/-- The first bytes of the scratch buffer are stored or read. -/
def touch (count : ℕ) : Prog (Scratched δ) Unit :=
  update fun s => {s with touched := s.touched++[count]}

/-- Go on with a result, or return its code. -/
def thenDo (p : Prog (Scratched δ) (Except ℤ α)) (f : α → Prog (Scratched δ) (Except ℤ β)) :
    Prog (Scratched δ) (Except ℤ β) := do
  let result ← p
  match result with
  | .error code => pure (.error code)
  | .ok a => f a

/-- Clean up after an operation, whatever its result; the first error is returned. -/
def finallyDo (run : Prog (Scratched δ) (Except ℤ α))
    (cleanup : Prog (Scratched δ) (Except ℤ β)) : Prog (Scratched δ) (Except ℤ α) := do
  let result ← run
  let cleaned ← cleanup
  match result,cleaned with
  | .error code,_ => pure (.error code)
  | .ok _,.error code => pure (.error code)
  | .ok a,.ok _ => pure (.ok a)

/-- Refuse the arguments of an operation. -/
def refuseArgs (code : ℤ) : Prog (Scratched δ) (Except ℤ α) := pure (.error code)

/-- The function `ble_scratch` before a part of an operation. -/
def bleScratch (ble : Peer δ) (required : ℕ) (run : Prog (Scratched δ) (Except ℤ α)) :
    Prog (Scratched δ) (Except ℤ α) :=
  if ble.scratchSize< required then refuseArgs (-1) else run

/-- Where an answer is read to: how many bytes of the scratch buffer it takes. -/
abbrev Landing := ClpHeader → ℕ

/-- In a variable of the operation or in memory of the caller. -/
def elsewhere : Landing := fun _ => 0

/-- In the scratch buffer, if it has the expected length. -/
def exactly (expected : UInt32) : Landing := fun response =>
  if responseOk response expected then expected.toNat else 0

/-- In the scratch buffer, if its length is within bounds. -/
def within (low high : UInt32) : Landing := fun response =>
  if response.imm≠clpStatusOk ∨ response.length<low ∨ high< response.length then 0
  else response.length.toNat

/-- Build a request in the scratch buffer, exchange it with further chunks, and end the
exchange. -/
def scratchExchange (ble : Peer δ) (required : ℕ) (opcode : UInt8) (request : List UInt8)
    (data : List (List UInt8)) (landing : Landing)
    (finish : ClpHeader → Prog (Link δ) (Except ℤ α)) : Prog (Scratched δ) (Except ℤ α) :=
  bleScratch ble required do
    touch request.length
    let answer ← onLink (commandAnswer ble.transport clpChBle opcode (request::data))
    match answer with
    | .error code => pure (.error code)
    | .ok response => do
      touch (landing response)
      onLink (finish response)

section Operations

/-- `cl_ble_scan_start`. -/
def scanStart (ble : Peer δ) (durationMs : UInt16) : Prog (Scratched δ) (Except ℤ Unit) :=
  scratchExchange ble 4 clpBleScanStart (le32 durationMs.toUInt32) [] elsewhere statusOnly

/-- `cl_ble_connect`. -/
def connect (ble : Peer δ) (addr : BleAddr) : Prog (Scratched δ) (Except ℤ UInt16) :=
  scratchExchange ble 8 clpBleConnect (addr.bytes.toList++[addr.type,0]) [] (exactly 4)
    (expectExact ble 4 clBleParseHandleResponse)

/-- `cl_ble_disconnect`. -/
def disconnect (ble : Peer δ) (handle : UInt16) : Prog (Scratched δ) (Except ℤ Unit) :=
  if handle=0 then refuseArgs (-1)
  else
    scratchExchange ble 4 clpBleDisconnect (le32 handle.toUInt32) [] elsewhere statusOnly

/-- `cl_ble_gatt_find_chr16`. -/
def gattFindChr16 (ble : Peer δ) (handle startHandle endHandle uuid16 : UInt16) :
    Prog (Scratched δ) (Except ℤ BleChr) :=
  if handle=0 ∨ uuid16=0 then refuseArgs (-1)
  else if (if endHandle=0 then 0xffff else endHandle)<
      (if startHandle=0 then 1 else startHandle) then refuseArgs (-1)
  else
    scratchExchange ble 12 clpBleGattFindChr16
      (clBleBuildGattFindRequest handle startHandle endHandle uuid16) [] (exactly 8)
      (expectExact ble 8 clBleParseGattFindChr16Response)

/-- `cl_ble_gatt_find_service`. -/
def gattFindService (ble : Peer δ) (handle startHandle endHandle uuid16 : UInt16) :
    Prog (Scratched δ) (Except ℤ BleService) :=
  if handle=0 then refuseArgs (-1)
  else
    scratchExchange ble 12 clpBleGattFindService
      (clBleBuildGattFindRequest handle startHandle endHandle uuid16) [] (exactly 8)
      (expectExact ble 8 clBleParseGattServiceResponse)

/-- `cl_ble_gatt_find_chr`. -/
def gattFindChr (ble : Peer δ) (handle startHandle endHandle uuid16 : UInt16) :
    Prog (Scratched δ) (Except ℤ BleChr) :=
  if handle=0 then refuseArgs (-1)
  else
    scratchExchange ble 12 clpBleGattFindChr
      (clBleBuildGattFindRequest handle startHandle endHandle uuid16) [] (exactly 12)
      (expectExact ble 12 clBleParseGattChrResponse)

/-- `cl_ble_gatt_find_desc`. -/
def gattFindDesc (ble : Peer δ) (handle chrValueHandle endHandle uuid16 : UInt16) :
    Prog (Scratched δ) (Except ℤ BleDesc) :=
  if handle=0 then refuseArgs (-1)
  else
    scratchExchange ble 12 clpBleGattFindDesc
      (clBleBuildGattFindRequest handle chrValueHandle endHandle uuid16) [] (exactly 8)
      (expectExact ble 8 clBleParseGattDescResponse)

/-- `cl_ble_gatt_read`, into memory of the caller or into the scratch buffer. -/
def gattRead (ble : Peer δ) (landing : Landing) (handle attr : UInt16) (capacity : UInt32) :
    Prog (Scratched δ) (Except ℤ (List UInt8)) :=
  if handle=0 then refuseArgs (-1)
  else
    scratchExchange ble 12 clpBleGattRead
      (le32 handle.toUInt32++le32 attr.toUInt32++
        le32 (min capacity clpBleGattReadFrameMaxData)) [] landing
      (expectWithin ble 0 (min capacity clpBleGattReadFrameMaxData) fun _ payload =>
        .ok payload)

/-- `cl_ble_gatt_write`. -/
def gattWrite (ble : Peer δ) (handle attr : UInt16) (data : List UInt8) :
    Prog (Scratched δ) (Except ℤ ℕ) :=
  if handle=0 ∨ clpBleGattWriteFrameMaxData<data.length then refuseArgs (-1)
  else
    scratchExchange ble 8 clpBleGattWrite (le32 handle.toUInt32++le32 attr.toUInt32) [data]
      (exactly 4) (expectExact ble 4 fun payload => countOf (wordAt payload 0))

/-- `cl_ble_gatt_notify`. -/
def gattNotify (ble : Peer δ) (handle attr : UInt16) (enable : Bool) :
    Prog (Scratched δ) (Except ℤ Unit) :=
  if handle=0 ∨ attr=0 then refuseArgs (-1)
  else
    scratchExchange ble 12 clpBleGattNotify
      (le32 handle.toUInt32++le32 attr.toUInt32++le32 (if enable then 1 else 0)) [] elsewhere
      statusOnly

/-- `cl_ble_gatt_subscribe`. -/
def gattSubscribe (ble : Peer δ) (handle valueHandle endHandle : UInt16)
    (enable indicate : Bool) : Prog (Scratched δ) (Except ℤ Unit) :=
  if handle=0 ∨ valueHandle=0 then refuseArgs (-1)
  else if (if endHandle=0 then 0xffff else endHandle)≤valueHandle then refuseArgs (-1)
  else
    thenDo (gattFindDesc ble handle valueHandle
        (if endHandle=0 then 0xffff else endHandle) clBleUuidCccd) fun desc =>
      thenDo (gattWrite ble handle desc.handle (le16 (cccdOf enable indicate))) fun written =>
        if written≠2 then refuseArgs (-3) else gattNotify ble handle valueHandle enable

/-- The search of `cl_ble_gatt_subscribe_chr16`. -/
def rangeOf (ble : Peer δ) (handle serviceUuid16 : UInt16) :
    Prog (Scratched δ) (Except ℤ (UInt16×UInt16)) :=
  if serviceUuid16=0 then pure (.ok (1,0xffff))
  else
    thenDo (gattFindService ble handle 1 0xffff serviceUuid16) fun service =>
      pure (.ok (service.startHandle,service.endHandle))

/-- `cl_ble_gatt_subscribe_chr16`. -/
def gattSubscribeChr16 (ble : Peer δ) (handle serviceUuid16 chrUuid16 : UInt16)
    (enable indicate : Bool) : Prog (Scratched δ) (Except ℤ BleChr) :=
  if handle=0 ∨ chrUuid16=0 then refuseArgs (-1)
  else
    thenDo (rangeOf ble handle serviceUuid16) fun range =>
      thenDo (gattFindChr16 ble handle range.1 range.2 chrUuid16) fun chr =>
        thenDo (gattSubscribe ble handle chr.valueHandle range.2 enable indicate) fun _ =>
          pure (.ok chr)

/-- `cl_ble_event_next`. -/
def eventNext (ble : Peer δ) (maxData : ℕ) : Prog (Scratched δ) (Except ℤ BleEvent) :=
  if clpBleScanDataMaxBytes< maxData then refuseArgs (-1)
  else
    scratchExchange ble (clpBleEventHeaderBytes+maxData) clpBleEventNext
      (le32 (UInt32.ofNat maxData)) []
      (within (UInt32.ofNat clpBleEventHeaderBytes)
        (UInt32.ofNat (clpBleEventHeaderBytes+maxData)))
      (expectWithin ble (UInt32.ofNat clpBleEventHeaderBytes)
        (UInt32.ofNat (clpBleEventHeaderBytes+maxData)) (clBleParseEventResponse maxData))

/-- Work on a connection that is closed afterwards. -/
def whileConnected (ble : Peer δ) (addr : BleAddr)
    (run : UInt16 → Prog (Scratched δ) (Except ℤ α)) : Prog (Scratched δ) (Except ℤ α) :=
  thenDo (connect ble addr) fun handle => finallyDo (run handle) (disconnect ble handle)

/-- `cl_ble_probe_device_name`, which reads the name into the scratch buffer. -/
def probeDeviceName (ble : Peer δ) (addr : BleAddr) (outSize : ℕ) :
    Prog (Scratched δ) (Except ℤ (ℕ×List UInt8)) :=
  if outSize=0 then refuseArgs (-1)
  else
    whileConnected ble addr fun handle =>
      thenDo (gattFindChr16 ble handle 1 0xffff clBleUuidDeviceName) fun chr =>
        bleScratch ble 32
          (thenDo (gattRead ble (within 0 (min 32 clpBleGattReadFrameMaxData)) handle
              chr.valueHandle 32) fun raw =>
            pure (.ok (raw.length,printable (raw.take (outSize-1)))))

/-- `cl_ble_read_chr16`. -/
def readChr16 (ble : Peer δ) (addr : BleAddr) (uuid16 : UInt16) (capacity : UInt32) :
    Prog (Scratched δ) (Except ℤ (List UInt8)) :=
  if uuid16=0 then refuseArgs (-1)
  else
    whileConnected ble addr fun handle =>
      thenDo (gattFindChr16 ble handle 1 0xffff uuid16) fun chr =>
        gattRead ble elsewhere handle chr.valueHandle capacity

/-- `cl_ble_write_chr16`. -/
def writeChr16 (ble : Peer δ) (addr : BleAddr) (uuid16 : UInt16) (data : List UInt8) :
    Prog (Scratched δ) (Except ℤ ℕ) :=
  if uuid16=0 then refuseArgs (-1)
  else
    whileConnected ble addr fun handle =>
      thenDo (gattFindChr16 ble handle 1 0xffff uuid16) fun chr =>
        gattWrite ble handle chr.valueHandle data

/-- Subscribe through the descriptor, or by the notification switch if there is none. -/
def subscribeEitherWay (ble : Peer δ) (handle valueHandle : UInt16) (enable : Bool) :
    Prog (Scratched δ) (Except ℤ Unit) := do
  let result ← gattSubscribe ble handle valueHandle 0xffff enable false
  match result with
  | .error code =>
    if code=notFoundCode then gattNotify ble handle valueHandle enable
    else pure (.error code)
  | .ok _ => pure (.ok ())

/-- The polling loop of `cl_ble_collect_notify_chr16`. -/
def gatherNotifications (ble : Peer δ) (valueHandle : UInt16) (capacity : ℕ) :
    ℕ → List BleEvent → Prog (Scratched δ) (Except ℤ (List BleEvent))
  | 0,events => pure (.ok events)
  | attempts+1,events => do
    let next ← eventNext ble clpBleScanDataMaxBytes
    match next with
    | .error code =>
      if code=notFoundCode then gatherNotifications ble valueHandle capacity attempts events
      else pure (.error code)
    | .ok event =>
      gatherNotifications ble valueHandle capacity attempts
        (if event.type=clpBleEventGattData ∧ event.attrHandle=valueHandle then
          keepEvent capacity events event
        else events)

/-- `cl_ble_collect_notify_chr16`. -/
def collectNotifyChr16 (ble : Peer δ) (addr : BleAddr) (uuid16 : UInt16) (capacity : ℕ)
    (pollAttempts : UInt32) : Prog (Scratched δ) (Except ℤ (List BleEvent)) :=
  if uuid16=0 then refuseArgs (-1)
  else
    whileConnected ble addr fun handle =>
      thenDo (gattFindChr16 ble handle 1 0xffff uuid16) fun chr =>
        thenDo (subscribeEitherWay ble handle chr.valueHandle true) fun _ =>
          finallyDo (gatherNotifications ble chr.valueHandle capacity pollAttempts.toNat [])
            (subscribeEitherWay ble handle chr.valueHandle false)

/-- The polling loop of `cl_ble_scan_collect`. -/
def gatherScan (ble : Peer δ) (capacity : ℕ) :
    ℕ → List BleEvent → Prog (Scratched δ) (Except ℤ (List BleEvent))
  | 0,events => pure (.ok events)
  | attempts+1,events => do
    let next ← eventNext ble clpBleScanDataMaxBytes
    match next with
    | .error code =>
      if code=notFoundCode then gatherScan ble capacity attempts events
      else pure (.error code)
    | .ok event =>
      if event.type=clpBleEventScanComplete then pure (.ok events)
      else
        gatherScan ble capacity attempts
          (if event.type=clpBleEventScanResult then keepEvent capacity events event
          else events)

/-- `cl_ble_scan_collect`. -/
def scanCollect (ble : Peer δ) (durationMs : UInt16) (capacity : ℕ)
    (pollAttempts : UInt32) : Prog (Scratched δ) (Except ℤ (List BleEvent)) :=
  thenDo (scanStart ble durationMs) fun _ =>
    finallyDo (gatherScan ble capacity pollAttempts.toNat []) (onLink (clBleScanStop ble))

/-- `cl_ble_gatt_find_service128`. -/
def gattFindService128 (ble : Peer δ) (handle startHandle endHandle : UInt16)
    (uuid128 : Uuid128) : Prog (Scratched δ) (Except ℤ BleService) :=
  scratchExchange ble 24 clpBleGattFindService128
    (clBleBuildGattFind128Request handle startHandle endHandle uuid128) [] (exactly 8)
    (expectExact ble 8 clBleParseGattServiceResponse)

/-- `cl_ble_gatt_find_chr128`. -/
def gattFindChr128 (ble : Peer δ) (handle startHandle endHandle : UInt16)
    (uuid128 : Uuid128) : Prog (Scratched δ) (Except ℤ BleChr) :=
  scratchExchange ble 24 clpBleGattFindChr128
    (clBleBuildGattFind128Request handle startHandle endHandle uuid128) [] (exactly 12)
    (expectExact ble 12 clBleParseGattChrResponse)

/-- `cl_ble_gatt_find_desc128`. -/
def gattFindDesc128 (ble : Peer δ) (handle chrValueHandle endHandle : UInt16)
    (uuid128 : Uuid128) : Prog (Scratched δ) (Except ℤ BleDesc) :=
  scratchExchange ble 24 clpBleGattFindDesc128
    (clBleBuildGattFind128Request handle chrValueHandle endHandle uuid128) [] (exactly 8)
    (expectExact ble 8 clBleParseGattDescResponse)

/-- `cl_ble_scan_start_ex`. -/
def scanStartEx (ble : Peer δ) (durationMs intervalUs windowUs : UInt16) (flags : UInt32) :
    Prog (Scratched δ) (Except ℤ Unit) :=
  scratchExchange ble 16 clpBleScanStart
    (le32 durationMs.toUInt32++le32 intervalUs.toUInt32++le32 windowUs.toUInt32++le32 flags)
    [] elsewhere (expectAck ble)

/-- `cl_ble_conn_update`. -/
def connUpdate (ble : Peer δ) (handle intervalMin intervalMax latency timeout : UInt16) :
    Prog (Scratched δ) (Except ℤ Unit) :=
  if handle=0 then refuseArgs (-1)
  else
    scratchExchange ble 12 clpBleConnUpdate
      (le32 handle.toUInt32++le32 (halves intervalMin intervalMax)++
        le32 (halves latency timeout)) [] elsewhere (expectAck ble)

/-- `cl_ble_exchange_mtu`. -/
def exchangeMtu (ble : Peer δ) (handle : UInt16) : Prog (Scratched δ) (Except ℤ UInt16) :=
  if handle=0 then refuseArgs (-1)
  else
    scratchExchange ble 6 clpBleExchangeMtu (le32 handle.toUInt32++le16 256) [] (exactly 4)
      (expectExact ble 4 fun payload => .ok (wordAt payload 0).toUInt16)

/-- `cl_ble_conn_info`, which asks for four bytes and reads thirty-two. -/
def connInfo (ble : Peer δ) (handle : UInt16) : Prog (Scratched δ) (Except ℤ BleConnInfo) :=
  if handle=0 then refuseArgs (-1)
  else
    scratchExchange ble 4 clpBleConnInfo (le32 handle.toUInt32) [] (exactly 32)
      (expectExact ble 32 fun payload => .ok (clBleParseConnInfoResponse payload))

/-- `cl_ble_is_connected`. -/
def isConnected (ble : Peer δ) (handle : UInt16) : Prog (Scratched δ) (Except ℤ Bool) := do
  let info ← connInfo ble handle
  match info with
  | .error _ => pure (.ok false)
  | .ok info => pure (.ok info.connected)

/-- `cl_ble_gatt_read_long`. -/
def gattReadLong (ble : Peer δ) (handle attr offset : UInt16) (capacity : UInt32) :
    Prog (Scratched δ) (Except ℤ (List UInt8)) :=
  if handle=0 then refuseArgs (-1)
  else
    scratchExchange ble 12 clpBleGattReadLong
      (le32 handle.toUInt32++le32 (halves attr offset)++
        le32 (min capacity clpBleGattReadFrameMaxData)) [] elsewhere
      (expectWithin ble 0 (min capacity clpBleGattReadFrameMaxData) fun _ payload =>
        .ok payload)

/-- `cl_ble_gatt_write_long`. -/
def gattWriteLong (ble : Peer δ) (handle attr offset : UInt16) (data : List UInt8) :
    Prog (Scratched δ) (Except ℤ ℤ) :=
  if handle=0 ∨ clpBleGattWriteFrameMaxData<data.length then refuseArgs (-1)
  else
    scratchExchange ble 8 clpBleGattWriteLong
      (le32 handle.toUInt32++le32 (halves attr offset)) [data] (exactly 4)
      (expectExact ble 4 intOf)

/-- `cl_ble_security_config`. -/
def securityConfig (ble : Peer δ) (config : BleSecurityConfig) :
    Prog (Scratched δ) (Except ℤ Unit) :=
  if securityConfigValid config=false then refuseArgs (-1)
  else
    scratchExchange ble 8 clpBleSecurityConfig
      [config.ioCaps,config.flags,config.ourKeyDist,config.theirKeyDist,
        config.securityLevel,0,0,0] [] elsewhere (expectAck ble)

/-- `cl_ble_pair`. -/
def pair (ble : Peer δ) (handle : UInt16) (ioCaps bond : UInt8) :
    Prog (Scratched δ) (Except ℤ Unit) :=
  if handle=0 ∨ clBleIoCapsNoIo< ioCaps then refuseArgs (-1)
  else
    scratchExchange ble 6 clpBlePair (le32 handle.toUInt32++[ioCaps,bond]) [] elsewhere
      (expectAck ble)

/-- `cl_ble_passkey_reply`. -/
def passkeyReply (ble : Peer δ) (handle : UInt16) (passkey : UInt32) :
    Prog (Scratched δ) (Except ℤ Unit) :=
  if handle=0 then refuseArgs (-1)
  else
    scratchExchange ble 8 clpBlePasskeyReply (le32 handle.toUInt32++le32 passkey) [] elsewhere
      (expectAck ble)

/-- `ble_gatts_add_service`, whose answer is read to a variable. -/
def gattsAddService (ble : Peer δ) (flags : UInt32) (uuid16 : UInt16)
    (uuid128 : Option Uuid128) : Prog (Scratched δ) (Except ℤ UInt16) :=
  let tail := if flags &&& clpBleGattsUuid128=0 then some []
    else uuid128.map fun uuid => uuid.toList
  match tail with
  | none => refuseArgs (-1)
  | some tail =>
    scratchExchange ble (8+tail.length) clpBleGattsAddService
      (le32 flags++le16At ble 4 uuid16++tail) [] elsewhere (bleReadIdResponse ble)

/-- `cl_ble_gatts_add_service16`. -/
def gattsAddService16 (ble : Peer δ) (uuid16 : UInt16) (flags : UInt32) :
    Prog (Scratched δ) (Except ℤ UInt16) :=
  gattsAddService ble ((flags &&& ~~~clpBleGattsUuid128) ||| clpBleGattsPrimary) uuid16 none

/-- `cl_ble_gatts_add_service128`. -/
def gattsAddService128 (ble : Peer δ) (uuid128 : Uuid128) (flags : UInt32) :
    Prog (Scratched δ) (Except ℤ UInt16) :=
  gattsAddService ble (flags ||| clpBleGattsUuid128 ||| clpBleGattsPrimary) 0 (some uuid128)

/-- `cl_ble_gatts_add_include`. -/
def gattsAddInclude (ble : Peer δ) (service includedService : UInt16) :
    Prog (Scratched δ) (Except ℤ Unit) :=
  if service=0 ∨ includedService=0 then refuseArgs (-1)
  else
    scratchExchange ble 4 clpBleGattsAddInclude (le16 service++le16 includedService) []
      elsewhere (expectAck ble)

/-- `ble_gatts_add_attr`, whose answer is read to a variable. -/
def gattsAddAttr (ble : Peer δ) (opcode : UInt8) (parent : UInt16) (flags : UInt32)
    (uuid16 : UInt16) (uuid128 : Option Uuid128) (value : List UInt8) :
    Prog (Scratched δ) (Except ℤ UInt16) :=
  if clpBleGattsValueMaxBytes<value.length then refuseArgs (-1)
  else
    let uuid := if flags &&& clpBleGattsUuid128=0 then some []
      else uuid128.map fun uuid => [uuid.toList]
    match uuid with
    | none => refuseArgs (-1)
    | some uuid =>
      scratchExchange ble 16 opcode
        (le16At ble 0 parent++le32 flags++le16At ble 8 uuid16++
          le32 (UInt32.ofNat value.length)) (uuid++(if value=[] then [] else [value]))
        elsewhere (bleReadIdResponse ble)

/-- `cl_ble_gatts_add_chr16`. -/
def gattsAddChr16 (ble : Peer δ) (service uuid16 : UInt16) (flags : UInt32)
    (value : List UInt8) : Prog (Scratched δ) (Except ℤ UInt16) :=
  gattsAddAttr ble clpBleGattsAddChr service (flags &&& ~~~clpBleGattsUuid128) uuid16 none value

/-- `cl_ble_gatts_add_chr128`. -/
def gattsAddChr128 (ble : Peer δ) (service : UInt16) (uuid128 : Uuid128) (flags : UInt32)
    (value : List UInt8) : Prog (Scratched δ) (Except ℤ UInt16) :=
  gattsAddAttr ble clpBleGattsAddChr service (flags ||| clpBleGattsUuid128) 0 (some uuid128)
    value

/-- `cl_ble_gatts_add_desc16`. -/
def gattsAddDesc16 (ble : Peer δ) (chr uuid16 : UInt16) (flags : UInt32)
    (value : List UInt8) : Prog (Scratched δ) (Except ℤ UInt16) :=
  gattsAddAttr ble clpBleGattsAddDesc chr (flags &&& ~~~clpBleGattsUuid128) uuid16 none value

/-- `cl_ble_gatts_add_desc128`. -/
def gattsAddDesc128 (ble : Peer δ) (chr : UInt16) (uuid128 : Uuid128) (flags : UInt32)
    (value : List UInt8) : Prog (Scratched δ) (Except ℤ UInt16) :=
  gattsAddAttr ble clpBleGattsAddDesc chr (flags ||| clpBleGattsUuid128) 0 (some uuid128) value

/-- `cl_ble_adv_start`. -/
def advStart (ble : Peer δ) (config : BleAdvConfig) : Prog (Scratched δ) (Except ℤ Unit) :=
  let name := (config.name.map fun text => text.1).getD []
  if 4<config.uuid16.length ∨ 2<config.uuid128.length ∨
      clpBleAdvNameMaxBytes<name.length then refuseArgs (-1)
  else
    scratchExchange ble (12+config.uuid16.length*2+config.uuid128.length*16+name.length)
      clpBleAdvStart (advRequest config name) [] elsewhere (expectAck ble)

/-- `cl_ble_gatts_notify`, whose answer is read to a variable. -/
def gattsNotify (ble : Peer δ) (handle chr : UInt16) (data : List UInt8) :
    Prog (Scratched δ) (Except ℤ ℤ) :=
  if clpBleGattsFrameMaxData<data.length then refuseArgs (-1)
  else
    scratchExchange ble 8 clpBleGattsNotify (le16At ble 0 handle++le16At ble 4 chr)
      (if data=[] then [] else [data]) elsewhere (expectExact ble 4 intOf)

/-- `cl_ble_gatts_set_value`. -/
def gattsSetValue (ble : Peer δ) (attr : UInt16) (data : List UInt8) :
    Prog (Scratched δ) (Except ℤ Unit) :=
  if clpBleGattsValueMaxBytes<data.length then refuseArgs (-1)
  else
    scratchExchange ble 8 clpBleGattsSetValue
      (le16At ble 0 attr++le32 (UInt32.ofNat data.length)) (if data=[] then [] else [data])
      elsewhere (expectAck ble)

/-- `cl_ble_gatts_get_value`. -/
def gattsGetValue (ble : Peer δ) (attr offset : UInt16) (capacity : UInt32) :
    Prog (Scratched δ) (Except ℤ (List UInt8)) :=
  scratchExchange ble 8 clpBleGattsGetValue
    (le16 attr++le16 offset++le32 (min capacity (UInt32.ofNat clpBleGattsValueMaxBytes))) []
    elsewhere
    (expectWithin ble 0 (min capacity (UInt32.ofNat clpBleGattsValueMaxBytes)) fun _ payload =>
      .ok payload)

/-- `cl_ble_gatts_subscribed`, whose answer is read to a variable. -/
def gattsSubscribed (ble : Peer δ) (handle chr : UInt16) : Prog (Scratched δ) (Except ℤ Bool) :=
  if handle=0 ∨ chr=0 then refuseArgs (-1)
  else
    scratchExchange ble 8 clpBleGattsSubscribed (le16At ble 0 handle++le16At ble 4 chr) []
      elsewhere
      (expectExact ble 4 fun payload =>
        .ok (wordAt payload 0 &&& clpBleGattsSubscribedAny≠0))

/-- The services of the host of a game link. -/
def setUpHost (ble : Peer δ) : Prog (Scratched δ) (Except ℤ UInt16) :=
  thenDo (onLink (clBleGattsReset ble)) fun _ =>
    thenDo (gattsAddService128 ble clBleLinkServiceUuid128 clpBleGattsPrimary) fun svc =>
      thenDo (gattsAddChr128 ble svc clBleLinkRxUuid128
          (clpBleGattsChrWrite ||| clpBleGattsChrWriteNoRsp) []) fun _ =>
        thenDo (gattsAddChr128 ble svc clBleLinkTxUuid128
            (clpBleGattsChrNotify ||| clpBleGattsChrRead) []) fun tx =>
          thenDo (onLink (clBleGattsStart ble)) fun _ => pure (.ok tx)

/-- The loop of `cl_ble_link_start` that looks for a peer. -/
def lookForPeer (ble : Peer δ) : ℕ → Prog (Scratched δ) (Option (List UInt8×UInt8))
  | 0 => pure none
  | attempts+1 => do
    let next ← eventNext ble clpBleScanDataMaxBytes
    match next with
    | .error _ => pure none
    | .ok event =>
      if event.type=clpBleEventScanResult ∧
          bleAdvHasUuid128 clBleLinkServiceUuid128 event.data=true then
        pure (some (event.addr,event.addrType))
      else if event.type=clpBleEventScanComplete then pure none
      else lookForPeer ble attempts

/-- Drop a connection after an error. -/
def giveUp (ble : Peer δ) (handle : UInt16) (code : ℤ) (link : BleLink) :
    Prog (Scratched δ) (Except ℤ ℕ×BleLink) := do
  let _ ← disconnect ble handle
  pure (.error code,link)

/-- What the joining side does on its connection. -/
def joinPeer (ble : Peer δ) (handle : UInt16) (link : BleLink) :
    Prog (Scratched δ) (Except ℤ ℕ×BleLink) := do
  let service ← gattFindService128 ble handle 1 0xffff clBleLinkServiceUuid128
  match service with
  | .error code => giveUp ble handle code link
  | .ok service => do
    let rx ← gattFindChr128 ble handle service.startHandle service.endHandle clBleLinkRxUuid128
    match rx with
    | .error code => giveUp ble handle code link
    | .ok rx => do
      let link := { link with rxAttr := rx.valueHandle }
      let tx ← gattFindChr128 ble handle service.startHandle service.endHandle
        clBleLinkTxUuid128
      match tx with
      | .error code => giveUp ble handle code link
      | .ok tx => do
        let subscribed ← gattSubscribe ble handle tx.valueHandle 0xffff true false
        match subscribed with
        | .error code => giveUp ble handle code link
        | .ok _ => pure (.ok handle.toNat,{ link with notifyAttr := tx.valueHandle })

/-- The joining side of `cl_ble_link_start`. -/
def startJoin (ble : Peer δ) (link : BleLink) : Prog (Scratched δ) (Except ℤ ℕ×BleLink) := do
  let scanning ← scanStartEx ble 3000 0 0 clpBleScanFlagActive
  match scanning with
  | .error code => pure (.error code,link)
  | .ok _ => do
    let found ← lookForPeer ble 600
    let _ ← onLink (clBleScanStop ble)
    match found with
    | none => pure (.error (-3),link)
    | some (bytes,type) => do
      let connected ← connect ble (addrOf bytes type)
      match connected with
      | .error code => pure (.error code,link)
      | .ok handle => joinPeer ble handle link

/-- The hosting side of `cl_ble_link_start`. -/
def startHost (ble : Peer δ) (name : CString) (link : BleLink) :
    Prog (Scratched δ) (Except ℤ ℕ×BleLink) := do
  let services ← setUpHost ble
  match services with
  | .error code => pure (.error code,link)
  | .ok tx => do
    let link := { link with txChr := tx }
    let advertised ← advStart ble ⟨0,0,0,[],[clBleLinkServiceUuid128],some name⟩
    match advertised with
    | .error code => pure (.error code,link)
    | .ok _ => pure (.ok 0,link)

/-- `cl_ble_link_start`. -/
def linkStart (ble : Peer δ) (link : BleLink) (role : LinkRole) (name : CString) :
    Prog (Scratched δ) (Except ℤ ℕ×BleLink) :=
  if name.1=[] then pure (.error (-1),link)
  else
    match role with
    | .host => startHost ble name ⟨.host,0,0,0⟩
    | .join => startJoin ble ⟨.join,0,0,0⟩
    | .other => pure (.error (-1),link)

/-- `cl_ble_link_stop`. -/
def linkStop (ble : Peer δ) (link : BleLink) (handle : UInt16) :
    Prog (Scratched δ) (Except ℤ ℕ×BleLink) := do
  let _ ← if handle≠0 then disconnect ble handle else pure (.ok ())
  let _ ← onLink (clBleAdvStop ble)
  let _ ← onLink (clBleGattsStop ble)
  pure (.ok 0,{ link with notifyAttr := 0, rxAttr := 0, txChr := 0 })

/-- `cl_ble_link_send`. -/
def linkSend (ble : Peer δ) (link : BleLink) (handle : UInt16) (data : List UInt8) :
    Prog (Scratched δ) (Except ℤ ℤ) :=
  if handle=0 then refuseArgs (-1)
  else if link.role=.host ∧ link.txChr≠0 then gattsNotify ble handle link.txChr data
  else if link.rxAttr≠0 then
    thenDo (gattWrite ble handle link.rxAttr data) fun written => pure (.ok written)
  else refuseArgs (-1)

/-- `cl_ble_link_peer_ready`. -/
def linkPeerReady (ble : Peer δ) (link : BleLink) (handle : UInt16) :
    Prog (Scratched δ) (Except ℤ ℕ) :=
  thenDo (eventNext ble clpBleScanDataMaxBytes) fun event =>
    pure (.ok (peerReady link handle event))

end Operations

end ChisLink.BleScratch
