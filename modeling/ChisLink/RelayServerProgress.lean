import ChisLink.RelayServerQueue

/-!
# A broadcast that waits for a writer that has returned

A broadcast keeps `s.mu` while it waits for room in a client queue. If the
writer of that client has returned without `done` being closed, only a
goroutine that takes `s.mu` could end the wait. The two steps that lead there
are singled out: a broadcast blocks on such a client, or the writer fails while
a broadcast is blocked on its full queue.
-/

namespace ChisLink.RelayServerProgress

open LabelledRuns RelayServerModel RelayServerStep RelayServerMutex RelayServerRegistry
  RelayServerQueue

/-- The room of the two clients below, as the joins leave it. -/
def sampleRoom : Room where
  roomAuth := List.replicate 32 1
  clients := ((∅ : AList fun _ : UInt16 => ConnId).insert 1 0).insert 2 1
  hostAnn := ∅

/-- The first client is reading, the writer of the second is busy, and that
many records wait for it. -/
structure Filling (s : Server) (n : ℕ) : Prop where
  /-- The server mutex is free. -/
  mu : s.mu=none
  /-- The first handler is in its read loop. -/
  reading : s.handlers 0=.reading
  /-- The first connection is open. -/
  connOpen : (s.conns 0).connClosed=false
  /-- The device id of the first client. -/
  dev : (s.conns 0).dev=1
  /-- Both clients are registered in its room. -/
  room : s.rooms.lookup (s.conns 0).room=some sampleRoom
  /-- The second client is open and nobody holds its queue. -/
  receiver : (s.conns 1).outMu=none ∧ (s.conns 1).closed=false ∧ (s.conns 1).done=false
  /-- The length of its queue. -/
  queued : (s.conns 1).out.length=n
  /-- Its writer is in a write. -/
  writing : ∃ entry,s.writers 1=.writing entry

end ChisLink.RelayServerProgress
