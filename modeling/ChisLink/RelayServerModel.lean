import ChisLink.LabelledRuns
import Mathlib.Data.List.AList
import Mathlib.Logic.Function.Basic

/-!
# The relay server as an interleaving of its goroutines

Every connection has a handler goroutine (`serveConn` with its read loop) and a
writer goroutine; admin calls run beside them. One action of the model is one
atomic piece of one goroutine: a critical section of `s.mu` is split wherever
it can wait for a client queue, so that a broadcast or a removal in progress is
a state of its own. Records carry their origin and a log lists every hand-off;
both are only observed, no branch depends on them.
-/

namespace ChisLink.RelayServerModel

/-- The number of an accepted TCP connection. -/
abbrev ConnId := ℕ

/-- A room number as the bytes of the Go string. -/
abbrev RoomName := List UInt8

/-- Length of every record on an authenticated connection. -/
def waPacketLen : ℕ := 112

/-- Magic word that opens every record. -/
def waMagic : UInt32 := 0x41574C43

/-- The only accepted record version. -/
def waVersion : UInt8 := 22

/-- Record type of a host announcement. -/
def waTypeAnnounce : UInt8 := 1

/-- Record type of a discovery request. -/
def waTypeDiscover : UInt8 := 2

/-- Record type of game data, the only one that may be dropped. -/
def waTypeData : UInt8 := 5

/-- Capacity of the channel `out` of a client. -/
def defaultOutQueue : ℕ := 256

/-- The most clients one room admits. -/
def maxRoomClients : ℕ := 4

/-- Length of a SHA-256 digest. -/
def sha256Size : ℕ := 32

/-- The four bytes that open both hello messages. -/
def helloMagic : List UInt8 := [0x52,0x4C,0x59,0x31]

/-- Length of the hello that a client sends. -/
def clientHelloLen : ℕ := 4+1+2+16+32+32

/-- One record of exactly `waPacketLen` bytes, as `io.ReadFull` delivers it. -/
structure Packet where
  /-- The bytes in wire order. -/
  bytes : List UInt8
  /-- A record is never short. -/
  length_eq : bytes.length=waPacketLen
deriving DecidableEq

/-- The byte at an index, zero outside. -/
def byteAt (raw : List UInt8) (i : ℕ) : UInt8 := raw.getD i 0

/-- `binary.LittleEndian.Uint16` of two bytes. -/
def le16 (raw : List UInt8) (i : ℕ) : UInt16 :=
  (byteAt raw i).toUInt16 ||| ((byteAt raw (i+1)).toUInt16 <<< 8)

/-- `binary.LittleEndian.Uint32` of four bytes. -/
def le32 (raw : List UInt8) (i : ℕ) : UInt32 :=
  (byteAt raw i).toUInt32 ||| ((byteAt raw (i+1)).toUInt32 <<< 8) |||
    ((byteAt raw (i+2)).toUInt32 <<< 16) ||| ((byteAt raw (i+3)).toUInt32 <<< 24)

/-- The header fields that routing reads. -/
structure PacketHeader where
  /-- Record type. -/
  typ : UInt8
  /-- Device id written by the sender. -/
  dev : UInt16
  /-- Device id of the receiver, zero or all ones for a broadcast. -/
  target : UInt16
  /-- Number of payload words. -/
  wordCount : UInt8
deriving DecidableEq

/-- Read the header of a record. -/
def parseHeader (raw : Packet) : PacketHeader where
  typ := byteAt raw.bytes 5
  dev := le16 raw.bytes 8
  target := le16 raw.bytes 12
  wordCount := byteAt raw.bytes 7

/-- The read loop ignores every record that fails this test. -/
def validPacket (raw : Packet) : Bool :=
  le32 raw.bytes 0=waMagic && byteAt raw.bytes 4=waVersion && byteAt raw.bytes 7≤24

/-- ANNOUNCE and DISCOVER records are the ones that may be broadcast. -/
def broadcastDiscovery (h : PacketHeader) : Bool :=
  h.typ=waTypeAnnounce || h.typ=waTypeDiscover

/-- The record goes to the whole room. -/
def isBroadcast (h : PacketHeader) : Bool :=
  (h.target=0 || h.target=0xffff) && broadcastDiscovery h

/-- A record with its origin: the connection that sent it and its number among
the valid records of that connection. -/
structure Sent where
  /-- The bytes that are routed. -/
  raw : Packet
  /-- The connection whose read loop read the record. -/
  src : ConnId
  /-- How many valid records that read loop had read before. -/
  seq : ℕ
deriving DecidableEq

/-- One hand-off to a client queue. -/
structure Entry where
  /-- The record handed over. -/
  sent : Sent
  /-- A stored announcement that answers a DISCOVER of the receiver. -/
  replay : Bool
deriving DecidableEq

/-- What `enqueue` and the writers did, in order. -/
inductive Event where
  /-- `routePacket` chose this receiver for the record. -/
  | routed (dst : ConnId) (entry : Entry)
  /-- The record entered the queue of the receiver. -/
  | entered (dst : ConnId) (entry : Entry)
  /-- The DATA record was dropped; the queue held that many records. -/
  | dropped (dst : ConnId) (entry : Entry) (queued : ℕ)
  /-- The receiver was being closed. -/
  | discarded (dst : ConnId) (entry : Entry)
  /-- The writer took the record out of the queue. -/
  | taken (dst : ConnId) (entry : Entry)
deriving DecidableEq

/-- The struct `client` and what its handler presented for it. -/
structure Client where
  /-- Device id of the hello. -/
  dev : UInt16
  /-- Room number of the hello. -/
  room : RoomName
  /-- Room auth of the hello. -/
  roomAuth : List UInt8
  /-- `addClient` returned true for this client. -/
  accepted : Bool
  /-- Content of the channel `out`, oldest first. -/
  out : List Entry
  /-- The channel `out` was closed. -/
  outClosed : Bool
  /-- The channel `done` was closed. -/
  done : Bool
  /-- The flag `closed`. -/
  closed : Bool
  /-- `conn.Close` was called. -/
  connClosed : Bool
  /-- The handler that holds `outMu` while it waits for room in `out`. -/
  outMu : Option ConnId
deriving DecidableEq

/-- A client as `serveConn` creates it. -/
def newClient (dev : UInt16) (room : RoomName) (roomAuth : List UInt8) : Client where
  dev := dev
  room := room
  roomAuth := roomAuth
  accepted := false
  out := []
  outClosed := false
  done := false
  closed := false
  connClosed := false
  outMu := none

/-- The struct `relayRoom`. -/
structure Room where
  /-- Room auth of the client that created the room. -/
  roomAuth : List UInt8
  /-- The map `clients`. -/
  clients : AList fun _ : UInt16 => ConnId
  /-- The map `hostAnn`. -/
  hostAnn : AList fun _ : UInt16 => Sent
deriving DecidableEq

/-- The map `rooms` of the server. -/
abbrev Rooms := AList fun _ : RoomName => Room

/-- Where the handler goroutine of a connection stands. -/
inductive HandlerPc where
  /-- The connection was not accepted yet. -/
  | absent
  /-- The server hello with this nonce was sent. -/
  | handshake (nonce : List UInt8)
  /-- Before `addClient`. -/
  | addingClient
  /-- `addClient` returned true; the writer is not started yet. -/
  | starting
  /-- In `io.ReadFull` of the read loop. -/
  | reading
  /-- A valid record was read; `routePacket` has not taken `s.mu` yet. -/
  | routing (packet : Sent)
  /-- In `enqueue` of the listed records, with `s.mu` held or not, and at the
  head either before `outMu` or blocked in the second select. -/
  | enqueuing (todo : List (ConnId×Entry)) (underMu blocked : Bool)
  /-- The read loop returned. -/
  | leaving
  /-- Before `s.mu` of the deferred `removeClient`. -/
  | removing
  /-- Inside the critical section of the deferred `removeClient`. -/
  | closing
  /-- `serveConn` returned. -/
  | gone
deriving DecidableEq

/-- Where the writer goroutine of a connection stands. -/
inductive WriterPc where
  /-- `go s.writerLoop` was not reached yet. -/
  | notStarted
  /-- Waiting to receive from `out`. -/
  | idle
  /-- In `conn.Write`. -/
  | writing (entry : Entry)
  /-- The writer loop returned. -/
  | returned
deriving DecidableEq

/-- What a closing section does after its `closeClient` calls. -/
inductive Tail where
  /-- The deferred `removeClient` of a handler. -/
  | remove (c : ConnId)
  /-- `kickClient`. -/
  | kick (room : RoomName) (dev : UInt16)
  /-- `deleteRoom`. -/
  | deleteRoom (room : RoomName)
deriving DecidableEq

/-- A critical section of `s.mu` that is in progress. -/
inductive Critical where
  /-- The handler is in a broadcast of `routePacket`. -/
  | broadcast (c : ConnId)
  /-- `closeClient` is still to be called for the listed clients. -/
  | closing (todo : List ConnId) (tail : Tail)
deriving DecidableEq

/-- The counters of `serverStats`. -/
structure ServerStats where
  /-- Failed handshakes. -/
  authFailures : ℕ := 0
  /-- Hellos with a wrong server key. -/
  badKey : ℕ := 0
  /-- Refusals of `addClient`. -/
  badRoom : ℕ := 0
  /-- Records without a receiver. -/
  droppedUnknown : ℕ := 0
  /-- DATA records dropped on a full queue. -/
  droppedQueue : ℕ := 0
  /-- Targeted records routed. -/
  routedPackets : ℕ := 0
  /-- Handlers between their increment and their deferred decrement. -/
  clients : ℤ := 0
deriving DecidableEq

/-- Command line limits, and the keyed hash of the standard library. -/
structure Config where
  /-- The flag `max-rooms`. -/
  maxRooms : ℕ
  /-- The flag `max-clients`. -/
  maxClients : ℕ
  /-- HMAC-SHA256 of a key and a message. -/
  hmacSha256 : List UInt8 → List UInt8 → List UInt8

/-- The shared state and the program counters of all goroutines. -/
structure Server where
  /-- The server key. -/
  key : List UInt8
  /-- The map `rooms`. -/
  rooms : Rooms
  /-- The section that holds `s.mu`, if it is not free. -/
  mu : Option Critical
  /-- The client struct of each connection. -/
  conns : ConnId → Client
  /-- The handler goroutines. -/
  handlers : ConnId → HandlerPc
  /-- The writer goroutines. -/
  writers : ConnId → WriterPc
  /-- The counters. -/
  stats : ServerStats
  /-- Valid records read from each connection so far. -/
  received : ConnId → ℕ
  /-- Everything `enqueue` and the writers did so far. -/
  log : List Event

/-- A server with no connection and no room. -/
def newServer (key : List UInt8) : Server where
  key := key
  rooms := ∅
  mu := none
  conns := fun _ => newClient 0 [] []
  handlers := fun _ => .absent
  writers := fun _ => .notStarted
  stats := {}
  received := fun _ => 0
  log := []

/-- What the goroutines can do next. Map iteration orders are part of the action. -/
inductive Action where
  /-- The accept loop gets a connection; the nonce is random. -/
  | accept (c : ConnId) (nonce : List UInt8)
  /-- The handshake fails on the connection. -/
  | handshakeError (c : ConnId)
  /-- The client hello arrives. -/
  | hello (c : ConnId) (clientHello : List UInt8)
  /-- `addClient`. -/
  | addClient (c : ConnId)
  /-- The handler counts the client and starts its writer. -/
  | start (c : ConnId)
  /-- The read loop reads a record. -/
  | read (c : ConnId) (raw : Packet)
  /-- The read loop returns on a read error. -/
  | readError (c : ConnId)
  /-- The part of `routePacket` under `s.mu` that selects the receivers. -/
  | routePacket (c : ConnId) (order annOrder : List UInt16)
  /-- `enqueue` takes `outMu` and runs its first select. -/
  | enqueue (c : ConnId)
  /-- The second select of `enqueue` sends. -/
  | send (c : ConnId)
  /-- The second select of `enqueue` sees `done` closed. -/
  | giveUp (c : ConnId)
  /-- `routePacket` returns. -/
  | finish (c : ConnId)
  /-- The deferred decrement of the client counter. -/
  | leave (c : ConnId)
  /-- `removeClient` takes `s.mu`. -/
  | removeClient (c : ConnId)
  /-- `kickClient` takes `s.mu`. -/
  | kickClient (room : RoomName) (dev : UInt16)
  /-- `deleteRoom` takes `s.mu`. -/
  | deleteRoom (room : RoomName) (order : List UInt16)
  /-- `closeClient` closes `done` of the next client. -/
  | closeDone
  /-- `closeClient` takes `outMu`, closes `out` and the connection. -/
  | closeOut
  /-- `closeClient` finds its `closeOnce` done. -/
  | closeSkip
  /-- The closing section edits the room table and unlocks. -/
  | closeTail
  /-- The writer receives from `out`. -/
  | writerTake (c : ConnId)
  /-- `conn.Write` of the writer succeeds. -/
  | writerSent (c : ConnId)
  /-- `conn.Write` of the writer fails. -/
  | writerError (c : ConnId)
  /-- The writer finds `out` closed and empty. -/
  | writerEnd (c : ConnId)
  /-- The admin replaces the server key. -/
  | rotateKey (key : List UInt8)
deriving DecidableEq

/-- `computeAuth`: the keyed hash of nonce, device id and room. -/
def computeAuth (cfg : Config) (key nonce : List UInt8) (dev : UInt16)
    (room : RoomName) : List UInt8 :=
  cfg.hmacSha256 key (nonce++[dev.toUInt8,(dev >>> 8).toUInt8]++room)

/-- `strings.TrimRight` of NUL bytes. -/
def trimRight (bytes : List UInt8) : List UInt8 :=
  (bytes.reverse.dropWhile (· = 0)).reverse

/-- Device id of a client hello. -/
def helloDev (clientHello : List UInt8) : UInt16 := le16 clientHello 5

/-- Room of a client hello. -/
def helloRoom (clientHello : List UInt8) : RoomName :=
  trimRight ((clientHello.drop 7).take 16)

/-- Proof of the server key in a client hello. -/
def helloClientAuth (clientHello : List UInt8) : List UInt8 :=
  (clientHello.drop 23).take 32

/-- Room auth of a client hello. -/
def helloRoomAuth (clientHello : List UInt8) : List UInt8 :=
  (clientHello.drop 55).take 32

/-- The table after `addClient`, or `none` where it returns false. -/
def addClient (cfg : Config) (rooms : Rooms) (room : RoomName) (roomAuth : List UInt8)
    (dev : UInt16) (c : ConnId) : Option Rooms :=
  match rooms.lookup room with
  | none =>
    if rooms.entries.length≥cfg.maxRooms then none
    else if roomAuth.length≠sha256Size then none
    else if (∅ : AList fun _ : UInt16 => ConnId).entries.length≥maxRoomClients then none
    else some (rooms.insert room
      { roomAuth := roomAuth, clients := (∅ : AList _).insert dev c, hostAnn := ∅ })
  | some r =>
    if r.roomAuth≠roomAuth then none
    else if r.clients.entries.length≥maxRoomClients then none
    else if dev∈r.clients then none
    else some (rooms.insert room { r with clients := r.clients.insert dev c })

/-- Delete a device from both maps of its room, and the room with its last client. -/
def deleteClient (rooms : Rooms) (room : RoomName) (dev : UInt16) : Rooms :=
  match rooms.lookup room with
  | none => rooms
  | some r =>
    let left := { r with clients := r.clients.erase dev, hostAnn := r.hostAnn.erase dev }
    if left.clients.entries.length=0 then rooms.erase room else rooms.insert room left

/-- The clients of a room in the order the map iteration visits them, without
the one registered under the device id of the sender. -/
def others (r : Room) (dev : UInt16) (order : List UInt16) : List ConnId :=
  order.filterMap fun d => if d=dev then none else r.clients.lookup d

/-- The stored announcements that answer a DISCOVER of a device. -/
def replays (r : Room) (dev : UInt16) (annOrder : List UInt16) : List Sent :=
  annOrder.filterMap fun d => if d=dev then none else r.hostAnn.lookup d

/-- The enqueue calls of a broadcast, replays to the sender first. -/
def broadcastTodo (r : Room) (dev : UInt16) (c : ConnId) (packet : Sent)
    (order annOrder : List UInt16) : List (ConnId×Entry) :=
  (if (parseHeader packet.raw).typ=waTypeDiscover then
    (replays r dev annOrder).map fun ann => (c,⟨ann,true⟩) else [])++
  (others r dev order).map fun d => (d,⟨packet,false⟩)

/-- The room after a broadcast: an ANNOUNCE is stored under the device id of
the connection that sent it. -/
def storeAnnounce (r : Room) (dev : UInt16) (packet : Sent) : Room :=
  if (parseHeader packet.raw).typ=waTypeAnnounce then
    { r with hostAnn := r.hostAnn.insert dev packet } else r

/-- Log entries of the receivers that a record was routed to. -/
def routedEvents (todo : List (ConnId×Entry)) : List Event :=
  todo.map fun hand => .routed hand.1 hand.2

end ChisLink.RelayServerModel
