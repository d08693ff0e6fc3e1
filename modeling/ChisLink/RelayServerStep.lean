import ChisLink.RelayServerModel

/-!
# Atomic actions of the relay server

The functions below are the atomic pieces of `serveConn`, `routePacket`,
`enqueue`, `closeClient` and the admin calls, each with its guard. The relation
at the end lists their branches; every invariant of the server is proved by
cases on it and never unfolds a step.
-/

namespace ChisLink.RelayServerStep

open LabelledRuns RelayServerModel

/-- `serveConn` returns before the client joined a room. -/
def dropConn (s : Server) (c : ConnId) (stats : ServerStats) : Server :=
  { s with
    handlers := Function.update s.handlers c .gone
    conns := Function.update s.conns c { s.conns c with connClosed := true }
    stats := stats }

/-- The accept loop drops the connection at the client limit. -/
def accept (cfg : Config) (s : Server) (c : ConnId) (nonce : List UInt8) : Option Server :=
  if s.handlers c=.absent then
    if s.stats.clients≥cfg.maxClients then some (dropConn s c s.stats)
    else some { s with handlers := Function.update s.handlers c (.handshake nonce) }
  else none

/-- A handshake read or write fails or the deadline passes. -/
def handshakeError (s : Server) (c : ConnId) : Option Server :=
  match s.handlers c with
  | .handshake _ => some (dropConn s c s.stats)
  | _ => none

/-- `serveConn` checks the client hello and creates the client. -/
def hello (cfg : Config) (s : Server) (c : ConnId) (clientHello : List UInt8) :
    Option Server :=
  match s.handlers c with
  | .handshake nonce =>
    if clientHello.length≠clientHelloLen then none
    else if clientHello.take 4≠helloMagic ∨ byteAt clientHello 4≠1 then
      some (dropConn s c { s.stats with authFailures := s.stats.authFailures+1 })
    else if helloRoom clientHello=[] then
      some (dropConn s c { s.stats with authFailures := s.stats.authFailures+1 })
    else if helloClientAuth clientHello≠
        computeAuth cfg s.key nonce (helloDev clientHello) (helloRoom clientHello) then
      some (dropConn s c { s.stats with
        badKey := s.stats.badKey+1
        authFailures := s.stats.authFailures+1 })
    else
      some { s with
        handlers := Function.update s.handlers c .addingClient
        conns := Function.update s.conns c
          (newClient (helloDev clientHello) (helloRoom clientHello)
            (helloRoomAuth clientHello)) }
  | _ => none

/-- `addClient` under `s.mu`, and the return of `serveConn` where it fails. -/
def joinRoom (cfg : Config) (s : Server) (c : ConnId) : Option Server :=
  if s.handlers c=.addingClient ∧ s.mu=none then
    match addClient cfg s.rooms (s.conns c).room (s.conns c).roomAuth (s.conns c).dev c with
    | none =>
      some (dropConn s c { s.stats with
        badRoom := s.stats.badRoom+1
        authFailures := s.stats.authFailures+1 })
    | some rooms =>
      some { s with
        rooms := rooms
        handlers := Function.update s.handlers c .starting
        conns := Function.update s.conns c { s.conns c with accepted := true } }
  else none

/-- Count the client and start its writer. -/
def start (s : Server) (c : ConnId) : Option Server :=
  if s.handlers c=.starting then
    some { s with
      handlers := Function.update s.handlers c .reading
      writers := Function.update s.writers c .idle
      stats := { s.stats with clients := s.stats.clients+1 } }
  else none

/-- The read loop skips a record that is not valid. -/
def read (s : Server) (c : ConnId) (raw : Packet) : Option Server :=
  if s.handlers c=.reading ∧ (s.conns c).connClosed=false then
    if validPacket raw then
      some { s with
        handlers := Function.update s.handlers c (.routing ⟨raw,c,s.received c⟩)
        received := Function.update s.received c (s.received c+1) }
    else some s
  else none

/-- The read loop returns. -/
def readError (s : Server) (c : ConnId) : Option Server :=
  if s.handlers c=.reading then
    some { s with handlers := Function.update s.handlers c .leaving }
  else none

/-- The receivers of a record are selected under `s.mu`. A broadcast keeps the
mutex for its enqueue calls, a targeted record releases it before. -/
def routePacket (s : Server) (c : ConnId) (order annOrder : List UInt16) : Option Server :=
  match s.handlers c with
  | .routing packet =>
    if s.mu=none then
      match s.rooms.lookup (s.conns c).room with
      | none => some { s with handlers := Function.update s.handlers c .reading }
      | some r =>
        if order.Perm r.clients.keys ∧ annOrder.Perm r.hostAnn.keys then
          if isBroadcast (parseHeader packet.raw) then
            let todo := broadcastTodo r (s.conns c).dev c packet order annOrder
            some { s with
              rooms := s.rooms.insert (s.conns c).room (storeAnnounce r (s.conns c).dev packet)
              mu := some (.broadcast c)
              handlers := Function.update s.handlers c (.enqueuing todo true false)
              log := s.log++routedEvents todo }
          else
            match r.clients.lookup (parseHeader packet.raw).target with
            | none =>
              some { s with
                handlers := Function.update s.handlers c .reading
                stats := { s.stats with droppedUnknown := s.stats.droppedUnknown+1 } }
            | some target =>
              let todo : List (ConnId×Entry) := [(target,⟨packet,false⟩)]
              some { s with
                handlers := Function.update s.handlers c (.enqueuing todo false false)
                log := s.log++routedEvents todo }
        else none
    else none
  | _ => none

/-- `enqueue` up to its first select: it waits for `outMu`, returns at once on
a closed client, and sends, drops or stays in the second select. -/
def enqueue (s : Server) (c : ConnId) : Option Server :=
  match s.handlers c with
  | .enqueuing ((b,entry)::todo) underMu false =>
    if (s.conns b).outMu=none then
      if (s.conns b).closed then
        some { s with
          handlers := Function.update s.handlers c (.enqueuing todo underMu false)
          log := s.log++[.discarded b entry] }
      else if (s.conns b).out.length<defaultOutQueue then
        some { s with
          handlers := Function.update s.handlers c (.enqueuing todo underMu false)
          conns := Function.update s.conns b
            { s.conns b with out := (s.conns b).out++[entry] }
          log := s.log++[.entered b entry] }
      else if (parseHeader entry.sent.raw).typ=waTypeData then
        some { s with
          handlers := Function.update s.handlers c (.enqueuing todo underMu false)
          stats := { s.stats with droppedQueue := s.stats.droppedQueue+1 }
          log := s.log++[.dropped b entry (s.conns b).out.length] }
      else
        some { s with
          handlers := Function.update s.handlers c
            (.enqueuing ((b,entry)::todo) underMu true)
          conns := Function.update s.conns b { s.conns b with outMu := some c } }
    else none
  | _ => none

/-- The blocked send of `enqueue` finds room. -/
def send (s : Server) (c : ConnId) : Option Server :=
  match s.handlers c with
  | .enqueuing ((b,entry)::todo) underMu true =>
    if (s.conns b).out.length<defaultOutQueue then
      some { s with
        handlers := Function.update s.handlers c (.enqueuing todo underMu false)
        conns := Function.update s.conns b
          { s.conns b with out := (s.conns b).out++[entry], outMu := none }
        log := s.log++[.entered b entry] }
    else none
  | _ => none

/-- The blocked send of `enqueue` ends because the client is being closed. -/
def giveUp (s : Server) (c : ConnId) : Option Server :=
  match s.handlers c with
  | .enqueuing ((b,entry)::todo) underMu true =>
    if (s.conns b).done then
      some { s with
        handlers := Function.update s.handlers c (.enqueuing todo underMu false)
        conns := Function.update s.conns b { s.conns b with outMu := none }
        log := s.log++[.discarded b entry] }
    else none
  | _ => none

/-- `routePacket` returns; a broadcast unlocks `s.mu`, a targeted record is counted. -/
def finish (s : Server) (c : ConnId) : Option Server :=
  match s.handlers c with
  | .enqueuing [] true _ =>
    some { s with handlers := Function.update s.handlers c .reading, mu := none }
  | .enqueuing [] false _ =>
    some { s with
      handlers := Function.update s.handlers c .reading
      stats := { s.stats with routedPackets := s.stats.routedPackets+1 } }
  | _ => none

/-- The first deferred call of `serveConn`. -/
def leave (s : Server) (c : ConnId) : Option Server :=
  if s.handlers c=.leaving then
    some { s with
      handlers := Function.update s.handlers c .removing
      stats := { s.stats with clients := s.stats.clients-1 } }
  else none

/-- The deferred `removeClient` takes `s.mu`. -/
def removeClient (s : Server) (c : ConnId) : Option Server :=
  if s.handlers c=.removing ∧ s.mu=none then
    some { s with
      handlers := Function.update s.handlers c .closing
      mu := some (.closing [c] (.remove c)) }
  else none

/-- `kickClient` returns false unless the device is in the room. -/
def kickClient (s : Server) (room : RoomName) (dev : UInt16) : Option Server :=
  if s.mu=none then
    match s.rooms.lookup room with
    | none => some s
    | some r =>
      match r.clients.lookup dev with
      | none => some s
      | some cl => some { s with mu := some (.closing [cl] (.kick room dev)) }
  else none

/-- `deleteRoom` returns false unless the room exists. -/
def deleteRoom (s : Server) (room : RoomName) (order : List UInt16) : Option Server :=
  if s.mu=none then
    match s.rooms.lookup room with
    | none => some s
    | some r =>
      if order.Perm r.clients.keys then
        some { s with mu := some (.closing (order.filterMap r.clients.lookup)
          (.deleteRoom room)) }
      else none
  else none

/-- `closeOnce` runs and closes `done`. -/
def closeDone (s : Server) : Option Server :=
  match s.mu with
  | some (.closing (b::_) _) =>
    if (s.conns b).done=false then
      some { s with conns := Function.update s.conns b { s.conns b with done := true } }
    else none
  | _ => none

/-- `closeOnce` continues once no sender holds `outMu`. -/
def closeOut (s : Server) : Option Server :=
  match s.mu with
  | some (.closing (b::todo) tail) =>
    if (s.conns b).done ∧ (s.conns b).closed=false ∧ (s.conns b).outMu=none then
      some { s with
        mu := some (.closing todo tail)
        conns := Function.update s.conns b
          { s.conns b with closed := true, outClosed := true, connClosed := true } }
    else none
  | _ => none

/-- `closeOnce` had run before. -/
def closeSkip (s : Server) : Option Server :=
  match s.mu with
  | some (.closing (b::todo) tail) =>
    if (s.conns b).done ∧ (s.conns b).closed then
      some { s with mu := some (.closing todo tail) }
    else none
  | _ => none

/-- The end of `disconnectClientLocked`: it deletes by room and device id. -/
def disconnectClientLocked (s : Server) (c : ConnId) : Rooms :=
  deleteClient s.rooms (s.conns c).room (s.conns c).dev

/-- The room table is edited after all `closeClient` calls, then `s.mu` is unlocked. -/
def closeTail (s : Server) : Option Server :=
  match s.mu with
  | some (.closing [] (.remove c)) =>
    some { s with
      mu := none
      rooms := disconnectClientLocked s c
      handlers := Function.update s.handlers c .gone
      conns := Function.update s.conns c { s.conns c with connClosed := true } }
  | some (.closing [] (.kick room dev)) =>
    some { s with mu := none, rooms := deleteClient s.rooms room dev }
  | some (.closing [] (.deleteRoom room)) =>
    some { s with mu := none, rooms := s.rooms.erase room }
  | _ => none

/-- The writer receives the oldest record. -/
def writerTake (s : Server) (c : ConnId) : Option Server :=
  if s.writers c=.idle then
    match (s.conns c).out with
    | [] => none
    | entry::rest =>
      some { s with
        writers := Function.update s.writers c (.writing entry)
        conns := Function.update s.conns c { s.conns c with out := rest }
        log := s.log++[.taken c entry] }
  else none

/-- A write can only succeed before the connection is closed. -/
def writerSent (s : Server) (c : ConnId) : Option Server :=
  match s.writers c with
  | .writing _ =>
    if (s.conns c).connClosed=false then
      some { s with writers := Function.update s.writers c .idle }
    else none
  | _ => none

/-- After a write error the writer closes the connection and returns. -/
def writerError (s : Server) (c : ConnId) : Option Server :=
  match s.writers c with
  | .writing _ =>
    some { s with
      writers := Function.update s.writers c .returned
      conns := Function.update s.conns c { s.conns c with connClosed := true } }
  | _ => none

/-- The range loop of the writer ends on a closed, empty channel. -/
def writerEnd (s : Server) (c : ConnId) : Option Server :=
  if s.writers c=.idle ∧ (s.conns c).out=[] ∧ (s.conns c).outClosed then
    some { s with writers := Function.update s.writers c .returned }
  else none

/-- The server key is replaced by one of 1 to 128 bytes. -/
def rotateKey (s : Server) (key : List UInt8) : Option Server :=
  if key=[] ∨ 128<key.length then some s else some { s with key := key }

/-- One atomic step of the server. -/
def step (cfg : Config) (s : Server) : Action → Option Server
  | .accept c nonce => accept cfg s c nonce
  | .handshakeError c => handshakeError s c
  | .hello c clientHello => hello cfg s c clientHello
  | .addClient c => joinRoom cfg s c
  | .start c => start s c
  | .read c raw => read s c raw
  | .readError c => readError s c
  | .routePacket c order annOrder => routePacket s c order annOrder
  | .enqueue c => enqueue s c
  | .send c => send s c
  | .giveUp c => giveUp s c
  | .finish c => finish s c
  | .leave c => leave s c
  | .removeClient c => removeClient s c
  | .kickClient room dev => kickClient s room dev
  | .deleteRoom room order => deleteRoom s room order
  | .closeDone => closeDone s
  | .closeOut => closeOut s
  | .closeSkip => closeSkip s
  | .closeTail => closeTail s
  | .writerTake c => writerTake s c
  | .writerSent c => writerSent s c
  | .writerError c => writerError s c
  | .writerEnd c => writerEnd s c
  | .rotateKey key => rotateKey s key

/-- The runs of a server that starts empty. -/
abbrev ServerRun (cfg : Config) (key : List UInt8) :=
  Run (step cfg) (newServer key)

/-- How far a handler is: before `addClient`, between `addClient` and its
deferred removal, or returned. -/
inductive Phase where
  /-- The client did not join yet. -/
  | outside
  /-- The client joined and its deferred removal has not finished. -/
  | inside
  /-- The handler returned. -/
  | over
deriving DecidableEq

/-- The phase of each program counter. -/
def phase : HandlerPc → Phase
  | .absent => .outside
  | .handshake _ => .outside
  | .addingClient => .outside
  | .gone => .over
  | _ => .inside

/-- The admin calls that may find nothing to do. -/
def mayIdle : Action → Bool
  | .kickClient _ _ => true
  | .deleteRoom _ _ => true
  | .rotateKey _ => true
  | _ => false

/-- The actions that may end a connection before it joined. -/
def mayDrop : Action → Bool
  | .accept _ _ => true
  | .handshakeError _ => true
  | .hello _ _ => true
  | .addClient _ => true
  | _ => false

/-- The branches of the atomic actions: guards, action and next state. -/
inductive Transition (cfg : Config) (s : Server) : Action → Server → Prop where
  /-- An admin call finds nothing to do. -/
  | skip {action : Action} (hidle : mayIdle action=true) : Transition cfg s action s
  /-- A connection ends before its client joined. -/
  | drop {action : Action} {c : ConnId} {stats : ServerStats}
      (hdrop : mayDrop action=true) (hpc : phase (s.handlers c)=.outside)
      (hclients : stats.clients=s.stats.clients) :
      Transition cfg s action (dropConn s c stats)
  /-- A connection is accepted below the client limit. -/
  | accept {c : ConnId} {nonce : List UInt8} (hpc : s.handlers c=.absent)
      (hlimit : s.stats.clients<cfg.maxClients) :
      Transition cfg s (.accept c nonce)
        { s with handlers := Function.update s.handlers c (.handshake nonce) }
  /-- The hello proves the server key. -/
  | hello {c : ConnId} {nonce clientHello : List UInt8}
      (hpc : s.handlers c=.handshake nonce)
      (hlength : clientHello.length=clientHelloLen)
      (hroom : helloRoom clientHello≠[]) :
      Transition cfg s (.hello c clientHello)
        { s with
          handlers := Function.update s.handlers c .addingClient
          conns := Function.update s.conns c
            (newClient (helloDev clientHello) (helloRoom clientHello)
              (helloRoomAuth clientHello)) }
  /-- `addClient` returns true. -/
  | join {c : ConnId} {rooms : Rooms} (hpc : s.handlers c=.addingClient) (hmu : s.mu=none)
      (hadd : RelayServerModel.addClient cfg s.rooms (s.conns c).room (s.conns c).roomAuth
        (s.conns c).dev c=some rooms) :
      Transition cfg s (.addClient c)
        { s with
          rooms := rooms
          handlers := Function.update s.handlers c .starting
          conns := Function.update s.conns c { s.conns c with accepted := true } }
  /-- The writer starts. -/
  | start {c : ConnId} (hpc : s.handlers c=.starting) :
      Transition cfg s (.start c)
        { s with
          handlers := Function.update s.handlers c .reading
          writers := Function.update s.writers c .idle
          stats := { s.stats with clients := s.stats.clients+1 } }
  /-- A valid record is read. -/
  | read {c : ConnId} {raw : Packet} (hpc : s.handlers c=.reading)
      (hopen : (s.conns c).connClosed=false) (hvalid : validPacket raw=true) :
      Transition cfg s (.read c raw)
        { s with
          handlers := Function.update s.handlers c (.routing ⟨raw,c,s.received c⟩)
          received := Function.update s.received c (s.received c+1) }
  /-- A record that is not valid is ignored. -/
  | ignore {c : ConnId} {raw : Packet} (hpc : s.handlers c=.reading)
      (hvalid : validPacket raw=false) : Transition cfg s (.read c raw) s
  /-- The read loop returns. -/
  | readError {c : ConnId} (hpc : s.handlers c=.reading) :
      Transition cfg s (.readError c)
        { s with handlers := Function.update s.handlers c .leaving }
  /-- The room of the sender does not exist. -/
  | routeNoRoom {c : ConnId} {order annOrder : List UInt16} {packet : Sent}
      (hpc : s.handlers c=.routing packet) (hmu : s.mu=none)
      (hroom : s.rooms.lookup (s.conns c).room=none) :
      Transition cfg s (.routePacket c order annOrder)
        { s with handlers := Function.update s.handlers c .reading }
  /-- An ANNOUNCE or DISCOVER goes to the whole room. -/
  | routeBroadcast {c : ConnId} {order annOrder : List UInt16} {packet : Sent} {r : Room}
      (hpc : s.handlers c=.routing packet) (hmu : s.mu=none)
      (hroom : s.rooms.lookup (s.conns c).room=some r)
      (horder : order.Perm r.clients.keys) (hann : annOrder.Perm r.hostAnn.keys)
      (hbroadcast : isBroadcast (parseHeader packet.raw)=true) :
      Transition cfg s (.routePacket c order annOrder)
        { s with
          rooms := s.rooms.insert (s.conns c).room (storeAnnounce r (s.conns c).dev packet)
          mu := some (.broadcast c)
          handlers := Function.update s.handlers c
            (.enqueuing (broadcastTodo r (s.conns c).dev c packet order annOrder) true false)
          log := s.log++
            routedEvents (broadcastTodo r (s.conns c).dev c packet order annOrder) }
  /-- No client has the target id. -/
  | routeUnknown {c : ConnId} {order annOrder : List UInt16} {packet : Sent} {r : Room}
      (hpc : s.handlers c=.routing packet) (hmu : s.mu=none)
      (hroom : s.rooms.lookup (s.conns c).room=some r)
      (hbroadcast : isBroadcast (parseHeader packet.raw)=false)
      (htarget : r.clients.lookup (parseHeader packet.raw).target=none) :
      Transition cfg s (.routePacket c order annOrder)
        { s with
          handlers := Function.update s.handlers c .reading
          stats := { s.stats with droppedUnknown := s.stats.droppedUnknown+1 } }
  /-- The record goes to one client. -/
  | routeTarget {c target : ConnId} {order annOrder : List UInt16} {packet : Sent} {r : Room}
      (hpc : s.handlers c=.routing packet) (hmu : s.mu=none)
      (hroom : s.rooms.lookup (s.conns c).room=some r)
      (hbroadcast : isBroadcast (parseHeader packet.raw)=false)
      (htarget : r.clients.lookup (parseHeader packet.raw).target=some target) :
      Transition cfg s (.routePacket c order annOrder)
        { s with
          handlers := Function.update s.handlers c
            (.enqueuing [(target,⟨packet,false⟩)] false false)
          log := s.log++routedEvents [(target,⟨packet,false⟩)] }
  /-- The receiver is closed. -/
  | discard {c b : ConnId} {entry : Entry} {todo : List (ConnId×Entry)} {underMu : Bool}
      (hpc : s.handlers c=.enqueuing ((b,entry)::todo) underMu false)
      (hfree : (s.conns b).outMu=none) (hclosed : (s.conns b).closed=true) :
      Transition cfg s (.enqueue c)
        { s with
          handlers := Function.update s.handlers c (.enqueuing todo underMu false)
          log := s.log++[.discarded b entry] }
  /-- The queue has room. -/
  | enter {c b : ConnId} {entry : Entry} {todo : List (ConnId×Entry)} {underMu : Bool}
      (hpc : s.handlers c=.enqueuing ((b,entry)::todo) underMu false)
      (hfree : (s.conns b).outMu=none) (hopen : (s.conns b).closed=false)
      (hspace : (s.conns b).out.length<defaultOutQueue) :
      Transition cfg s (.enqueue c)
        { s with
          handlers := Function.update s.handlers c (.enqueuing todo underMu false)
          conns := Function.update s.conns b
            { s.conns b with out := (s.conns b).out++[entry] }
          log := s.log++[.entered b entry] }
  /-- DATA is dropped on a full queue. -/
  | dropData {c b : ConnId} {entry : Entry} {todo : List (ConnId×Entry)} {underMu : Bool}
      (hpc : s.handlers c=.enqueuing ((b,entry)::todo) underMu false)
      (hfree : (s.conns b).outMu=none) (hopen : (s.conns b).closed=false)
      (hfull : defaultOutQueue≤(s.conns b).out.length)
      (hdata : (parseHeader entry.sent.raw).typ=waTypeData) :
      Transition cfg s (.enqueue c)
        { s with
          handlers := Function.update s.handlers c (.enqueuing todo underMu false)
          stats := { s.stats with droppedQueue := s.stats.droppedQueue+1 }
          log := s.log++[.dropped b entry (s.conns b).out.length] }
  /-- Any other record waits on a full queue with `outMu` held. -/
  | block {c b : ConnId} {entry : Entry} {todo : List (ConnId×Entry)} {underMu : Bool}
      (hpc : s.handlers c=.enqueuing ((b,entry)::todo) underMu false)
      (hfree : (s.conns b).outMu=none) (hopen : (s.conns b).closed=false)
      (hfull : defaultOutQueue≤(s.conns b).out.length)
      (hdata : (parseHeader entry.sent.raw).typ≠waTypeData) :
      Transition cfg s (.enqueue c)
        { s with
          handlers := Function.update s.handlers c
            (.enqueuing ((b,entry)::todo) underMu true)
          conns := Function.update s.conns b { s.conns b with outMu := some c } }
  /-- The blocked send finds room. -/
  | send {c b : ConnId} {entry : Entry} {todo : List (ConnId×Entry)} {underMu : Bool}
      (hpc : s.handlers c=.enqueuing ((b,entry)::todo) underMu true)
      (hspace : (s.conns b).out.length<defaultOutQueue) :
      Transition cfg s (.send c)
        { s with
          handlers := Function.update s.handlers c (.enqueuing todo underMu false)
          conns := Function.update s.conns b
            { s.conns b with out := (s.conns b).out++[entry], outMu := none }
          log := s.log++[.entered b entry] }
  /-- The blocked send sees `done` closed. -/
  | giveUp {c b : ConnId} {entry : Entry} {todo : List (ConnId×Entry)} {underMu : Bool}
      (hpc : s.handlers c=.enqueuing ((b,entry)::todo) underMu true)
      (hdone : (s.conns b).done=true) :
      Transition cfg s (.giveUp c)
        { s with
          handlers := Function.update s.handlers c (.enqueuing todo underMu false)
          conns := Function.update s.conns b { s.conns b with outMu := none }
          log := s.log++[.discarded b entry] }
  /-- A broadcast is over. -/
  | finishBroadcast {c : ConnId} {blocked : Bool}
      (hpc : s.handlers c=.enqueuing [] true blocked) :
      Transition cfg s (.finish c)
        { s with handlers := Function.update s.handlers c .reading, mu := none }
  /-- A targeted record is done. -/
  | finishTarget {c : ConnId} {blocked : Bool}
      (hpc : s.handlers c=.enqueuing [] false blocked) :
      Transition cfg s (.finish c)
        { s with
          handlers := Function.update s.handlers c .reading
          stats := { s.stats with routedPackets := s.stats.routedPackets+1 } }
  /-- The client counter goes down. -/
  | leave {c : ConnId} (hpc : s.handlers c=.leaving) :
      Transition cfg s (.leave c)
        { s with
          handlers := Function.update s.handlers c .removing
          stats := { s.stats with clients := s.stats.clients-1 } }
  /-- The deferred removal starts. -/
  | removeClient {c : ConnId} (hpc : s.handlers c=.removing) (hmu : s.mu=none) :
      Transition cfg s (.removeClient c)
        { s with
          handlers := Function.update s.handlers c .closing
          mu := some (.closing [c] (.remove c)) }
  /-- A registered client is kicked. -/
  | kickClient {cl : ConnId} {room : RoomName} {dev : UInt16} {r : Room} (hmu : s.mu=none)
      (hroom : s.rooms.lookup room=some r) (hdev : r.clients.lookup dev=some cl) :
      Transition cfg s (.kickClient room dev)
        { s with mu := some (.closing [cl] (.kick room dev)) }
  /-- An existing room is deleted. -/
  | deleteRoom {room : RoomName} {order : List UInt16} {r : Room} (hmu : s.mu=none)
      (hroom : s.rooms.lookup room=some r) (horder : order.Perm r.clients.keys) :
      Transition cfg s (.deleteRoom room order)
        { s with mu := some (.closing (order.filterMap r.clients.lookup)
          (.deleteRoom room)) }
  /-- `done` is closed. -/
  | closeDone {b : ConnId} {todo : List ConnId} {tail : Tail}
      (hmu : s.mu=some (.closing (b::todo) tail)) (hdone : (s.conns b).done=false) :
      Transition cfg s .closeDone
        { s with conns := Function.update s.conns b { s.conns b with done := true } }
  /-- `out` and the connection are closed. -/
  | closeOut {b : ConnId} {todo : List ConnId} {tail : Tail}
      (hmu : s.mu=some (.closing (b::todo) tail)) (hdone : (s.conns b).done=true)
      (hclosed : (s.conns b).closed=false) (hfree : (s.conns b).outMu=none) :
      Transition cfg s .closeOut
        { s with
          mu := some (.closing todo tail)
          conns := Function.update s.conns b
            { s.conns b with closed := true, outClosed := true, connClosed := true } }
  /-- The client had been closed before. -/
  | closeSkip {b : ConnId} {todo : List ConnId} {tail : Tail}
      (hmu : s.mu=some (.closing (b::todo) tail)) (hdone : (s.conns b).done=true)
      (hclosed : (s.conns b).closed=true) :
      Transition cfg s .closeSkip { s with mu := some (.closing todo tail) }
  /-- The deferred removal edits the table. -/
  | tailRemove {c : ConnId} (hmu : s.mu=some (.closing [] (.remove c))) :
      Transition cfg s .closeTail
        { s with
          mu := none
          rooms := disconnectClientLocked s c
          handlers := Function.update s.handlers c .gone
          conns := Function.update s.conns c { s.conns c with connClosed := true } }
  /-- A kick edits the table. -/
  | tailKick {room : RoomName} {dev : UInt16}
      (hmu : s.mu=some (.closing [] (.kick room dev))) :
      Transition cfg s .closeTail
        { s with mu := none, rooms := deleteClient s.rooms room dev }
  /-- A room deletion edits the table. -/
  | tailDelete {room : RoomName} (hmu : s.mu=some (.closing [] (.deleteRoom room))) :
      Transition cfg s .closeTail { s with mu := none, rooms := s.rooms.erase room }
  /-- The writer receives. -/
  | writerTake {c : ConnId} {entry : Entry} {rest : List Entry}
      (hpc : s.writers c=.idle) (hout : (s.conns c).out=entry::rest) :
      Transition cfg s (.writerTake c)
        { s with
          writers := Function.update s.writers c (.writing entry)
          conns := Function.update s.conns c { s.conns c with out := rest }
          log := s.log++[.taken c entry] }
  /-- A write succeeds. -/
  | writerSent {c : ConnId} {entry : Entry} (hpc : s.writers c=.writing entry)
      (hopen : (s.conns c).connClosed=false) :
      Transition cfg s (.writerSent c)
        { s with writers := Function.update s.writers c .idle }
  /-- A write fails. -/
  | writerError {c : ConnId} {entry : Entry} (hpc : s.writers c=.writing entry) :
      Transition cfg s (.writerError c)
        { s with
          writers := Function.update s.writers c .returned
          conns := Function.update s.conns c { s.conns c with connClosed := true } }
  /-- The writer loop ends. -/
  | writerEnd {c : ConnId} (hpc : s.writers c=.idle) (hout : (s.conns c).out=[])
      (hclosed : (s.conns c).outClosed=true) :
      Transition cfg s (.writerEnd c)
        { s with writers := Function.update s.writers c .returned }
  /-- The key is replaced. -/
  | rotateKey {key : List UInt8} :
      Transition cfg s (.rotateKey key) { s with key := key }

/-- Every step of the server is one of the listed branches. -/
theorem step_transition {cfg : Config} {s t : Server} {action : Action}
    (h : step cfg s action=some t) : Transition cfg s action t := by
  cases action with
  | accept c nonce =>
    simp only [step,accept] at h
    split at h
    · rename_i hpc
      split at h <;> cases h
      · exact .drop rfl (by rw [hpc]; rfl) rfl
      · exact .accept hpc (by omega)
    · cases h
  | handshakeError c =>
    simp only [step,handshakeError] at h
    split at h <;> cases h
    rename_i hpc
    exact .drop rfl (by rw [hpc]; rfl) rfl
  | hello c clientHello =>
    simp only [step,hello] at h
    split at h
    · rename_i nonce hpc
      have hout : phase (s.handlers c)=.outside := by rw [hpc]; rfl
      split at h
      · cases h
      rename_i hlength
      split at h
      · cases h
        exact .drop rfl hout rfl
      split at h
      · cases h
        exact .drop rfl hout rfl
      rename_i hroom
      split at h <;> cases h
      · exact .drop rfl hout rfl
      · exact .hello hpc (not_not.mp hlength) hroom
    · cases h
  | addClient c =>
    simp only [step,joinRoom] at h
    split at h
    · rename_i hguard
      split at h <;> cases h
      · exact .drop rfl (by rw [hguard.1]; rfl) rfl
      · rename_i hadd
        exact .join hguard.1 hguard.2 hadd
    · cases h
  | start c =>
    simp only [step,start] at h
    split at h <;> cases h
    exact .start ‹_›
  | read c raw =>
    simp only [step,read] at h
    split at h
    · rename_i hguard
      split at h <;> cases h
      · exact .read hguard.1 hguard.2 ‹_›
      · exact .ignore hguard.1 (Bool.eq_false_iff.mpr ‹_›)
    · cases h
  | readError c =>
    simp only [step,readError] at h
    split at h <;> cases h
    exact .readError ‹_›
  | routePacket c order annOrder =>
    simp only [step,routePacket] at h
    split at h
    · rename_i packet hpc
      split at h
      · rename_i hmu
        split at h
        · cases h
          exact .routeNoRoom hpc hmu ‹_›
        · rename_i r hroom
          split at h
          · rename_i horders
            split at h
            · cases h
              exact .routeBroadcast hpc hmu hroom horders.1 horders.2 ‹_›
            · rename_i hbroadcast
              have hsingle := Bool.eq_false_iff.mpr hbroadcast
              split at h <;> cases h
              · exact .routeUnknown hpc hmu hroom hsingle ‹_›
              · exact .routeTarget hpc hmu hroom hsingle ‹_›
          · cases h
      · cases h
    · cases h
  | enqueue c =>
    simp only [step,enqueue] at h
    split at h
    · rename_i b entry todo underMu hpc
      split at h
      · rename_i hfree
        split at h
        · cases h
          exact .discard hpc hfree ‹_›
        · rename_i hclosed
          have hopen := Bool.eq_false_iff.mpr hclosed
          split at h
          · cases h
            exact .enter hpc hfree hopen ‹_›
          · rename_i hfull
            split at h <;> cases h
            · exact .dropData hpc hfree hopen (Nat.not_lt.mp hfull) ‹_›
            · exact .block hpc hfree hopen (Nat.not_lt.mp hfull) ‹_›
      · cases h
    · cases h
  | send c =>
    simp only [step,send] at h
    split at h
    · split at h <;> cases h
      exact .send ‹_› ‹_›
    · cases h
  | giveUp c =>
    simp only [step,giveUp] at h
    split at h
    · split at h <;> cases h
      exact .giveUp ‹_› ‹_›
    · cases h
  | finish c =>
    simp only [step,finish] at h
    split at h <;> cases h
    · exact .finishBroadcast ‹_›
    · exact .finishTarget ‹_›
  | leave c =>
    simp only [step,leave] at h
    split at h <;> cases h
    exact .leave ‹_›
  | removeClient c =>
    simp only [step,removeClient] at h
    split at h <;> cases h
    rename_i hguard
    exact .removeClient hguard.1 hguard.2
  | kickClient room dev =>
    simp only [step,kickClient] at h
    split at h
    · rename_i hmu
      split at h
      · cases h
        exact .skip rfl
      · rename_i r hroom
        split at h <;> cases h
        · exact .skip rfl
        · exact .kickClient hmu hroom ‹_›
    · cases h
  | deleteRoom room order =>
    simp only [step,deleteRoom] at h
    split at h
    · rename_i hmu
      split at h
      · cases h
        exact .skip rfl
      · rename_i r hroom
        split at h <;> cases h
        exact .deleteRoom hmu hroom ‹_›
    · cases h
  | closeDone =>
    simp only [step,closeDone] at h
    split at h
    · split at h <;> cases h
      exact .closeDone ‹_› ‹_›
    · cases h
  | closeOut =>
    simp only [step,closeOut] at h
    split at h
    · split at h <;> cases h
      rename_i hmu hguard
      exact .closeOut hmu hguard.1 hguard.2.1 hguard.2.2
    · cases h
  | closeSkip =>
    simp only [step,closeSkip] at h
    split at h
    · split at h <;> cases h
      rename_i hmu hguard
      exact .closeSkip hmu hguard.1 hguard.2
    · cases h
  | closeTail =>
    simp only [step,closeTail] at h
    split at h <;> cases h
    · exact .tailRemove ‹_›
    · exact .tailKick ‹_›
    · exact .tailDelete ‹_›
  | writerTake c =>
    simp only [step,writerTake] at h
    split at h
    · split at h <;> cases h
      exact .writerTake ‹_› ‹_›
    · cases h
  | writerSent c =>
    simp only [step,writerSent] at h
    split at h
    · split at h <;> cases h
      exact .writerSent ‹_› ‹_›
    · cases h
  | writerError c =>
    simp only [step,writerError] at h
    split at h <;> cases h
    exact .writerError ‹_›
  | writerEnd c =>
    simp only [step,writerEnd] at h
    split at h <;> cases h
    rename_i hguard
    exact .writerEnd hguard.1 hguard.2.1 hguard.2.2
  | rotateKey key =>
    simp only [step,rotateKey] at h
    split at h <;> cases h
    · exact .skip rfl
    · exact .rotateKey

end ChisLink.RelayServerStep
