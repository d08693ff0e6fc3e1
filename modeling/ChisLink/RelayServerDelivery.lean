import ChisLink.RelayServerIncarnation

/-!
# Order and loss of the records one client sends to another

For a sender and a receiver the records that were routed are, in order, the
ones whose enqueue call has ended followed by the ones it still has to make.
Each ended call either put its record into the queue, or dropped a DATA record
on a full queue, or found the receiver being closed. The queue itself is first
in, first out.
-/

namespace ChisLink.RelayServerDelivery

open LabelledRuns RelayServerModel RelayServerStep RelayServerMutex RelayServerRegistry
  RelayServerQueue RelayServerIncarnation

/-- How an enqueue call ended. -/
inductive Outcome where
  /-- The record entered the queue. -/
  | entered
  /-- The record was dropped; that many records were queued. -/
  | dropped (queued : ℕ)
  /-- The receiver was being closed. -/
  | discarded
deriving DecidableEq

/-- The record of a live hand-off from one client to another. -/
def live (a b : ConnId) (hand : ConnId×Entry) : Option Sent :=
  if hand.1=b ∧ hand.2.replay=false ∧ hand.2.sent.src=a then some hand.2.sent else none

/-- The record that an event routed from one client to another. -/
def routedRecord (a b : ConnId) : Event → Option Sent
  | .routed dst entry => live a b (dst,entry)
  | _ => none

/-- The end of an enqueue call for a live record from one client to another. -/
def ending (a b : ConnId) : Event → Option (Sent×Outcome)
  | .entered dst entry => (live a b (dst,entry)).map fun p => (p,.entered)
  | .dropped dst entry queued => (live a b (dst,entry)).map fun p => (p,.dropped queued)
  | .discarded dst entry => (live a b (dst,entry)).map fun p => (p,.discarded)
  | _ => none

/-- The records routed from one client to another, in order. -/
def routedLog (log : List Event) (a b : ConnId) : List Sent := log.filterMap (routedRecord a b)

/-- The ended enqueue calls of the one client for the other, in order. -/
def endings (log : List Event) (a b : ConnId) : List (Sent×Outcome) :=
  log.filterMap (ending a b)

/-- The records from one client to another that still have to be enqueued. -/
def pendingTo (pc : HandlerPc) (a b : ConnId) : List Sent := (todoOf pc).filterMap (live a b)

/-- The routed records of a longer log. -/
theorem routedLog_append (log more : List Event) (a b : ConnId) :
    routedLog (log++more) a b=routedLog log a b++routedLog more a b :=
  List.filterMap_append

/-- The ended calls of a longer log. -/
theorem endings_append (log more : List Event) (a b : ConnId) :
    endings (log++more) a b=endings log a b++endings more a b :=
  List.filterMap_append

/-- The hand-off that an event ends. -/
def ended : Event → Option ((ConnId×Entry)×Outcome)
  | .entered dst entry => some ((dst,entry),.entered)
  | .dropped dst entry queued => some ((dst,entry),.dropped queued)
  | .discarded dst entry => some ((dst,entry),.discarded)
  | _ => none

/-- Events of other hand-offs end nothing between these two clients. -/
theorem ending_eq (a b : ConnId) (event : Event) :
    ending a b event=
      (ended event).bind fun e => (live a b e.1).map fun p => (p,e.2) := by
  cases event <;> rfl

/-- A hand-off that ended was not routed by the same event. -/
theorem routedRecord_of_ended {event : Event} {e : (ConnId×Entry)×Outcome}
    (h : ended event=some e) (a b : ConnId) : routedRecord a b event=none := by
  cases event <;> first | rfl | cases h

/-- The records selected by a routing step are logged in order. -/
theorem routedLog_routedEvents (todo : List (ConnId×Entry)) (a b : ConnId) :
    routedLog (routedEvents todo) a b=todo.filterMap (live a b) := by
  unfold routedLog routedEvents
  rw [List.filterMap_map]
  rfl

/-- A selection ends no enqueue call. -/
theorem endings_routedEvents (todo : List (ConnId×Entry)) (a b : ConnId) :
    endings (routedEvents todo) a b=[] := by
  unfold endings routedEvents
  rw [List.filterMap_map]
  exact List.filterMap_eq_nil_iff.mpr fun hand _ => rfl

/-- The invariant of the hand-offs between every two clients. -/
structure Handover (s : Server) : Prop where
  /-- Only the sender itself hands its live records over. -/
  own : ∀ c,∀ hand∈todoOf (s.handlers c),hand.2.replay=false → hand.2.sent.src=c
  /-- What was routed has ended or is still to be done, in this order. -/
  conserved : ∀ a b,routedLog s.log a b=
    (endings s.log a b).map Prod.fst++pendingTo (s.handlers a) a b

/-- The live records of a broadcast come from its sender. -/
theorem broadcastTodo_own {r : Room} {dev : UInt16} {c : ConnId} {packet : Sent}
    {order annOrder : List UInt16} (hsrc : packet.src=c) :
    ∀ hand∈broadcastTodo r dev c packet order annOrder,hand.2.replay=false →
      hand.2.sent.src=c := by
  intro hand hmem hlive
  unfold broadcastTodo at hmem
  rcases List.mem_append.mp hmem with hmem | hmem
  · split at hmem
    · obtain ⟨ann,_,rfl⟩ := List.mem_map.mp hmem
      cases hlive
    · cases hmem
  · obtain ⟨x,_,rfl⟩ := List.mem_map.mp hmem
    exact hsrc

/-- Live records of another sender do not count. -/
theorem live_of_own {hand : ConnId×Entry} {a b c : ConnId}
    (hown : hand.2.replay=false → hand.2.sent.src=c) (hac : a≠c) : live a b hand=none := by
  refine if_neg ?_
  rintro ⟨_,hlive,hsrc⟩
  exact hac (hsrc.symm.trans (hown hlive))

/-- One step keeps live records with their senders. -/
theorem own_step {cfg : Config} {s t : Server} {action : Action} (hQ : Queues s)
    (hH : Handover s) (h : Transition cfg s action t) :
    ∀ c,∀ hand∈todoOf (t.handlers c),hand.2.replay=false → hand.2.sent.src=c := by
  have handler : ∀ {c pc},(∀ hand∈todoOf pc,hand.2.replay=false → hand.2.sent.src=c) →
      ∀ d,∀ hand∈todoOf (Function.update s.handlers c pc d),hand.2.replay=false →
        hand.2.sent.src=d := by
    intro c pc hpc d hand hmem
    by_cases hd : d=c
    · subst hd
      rw [Function.update_self] at hmem
      exact hpc hand hmem
    · rw [Function.update_of_ne hd] at hmem
      exact hH.own d hand hmem
  have empty : ∀ {c pc},todoOf pc=[] →
      ∀ hand∈todoOf pc,hand.2.replay=false → hand.2.sent.src=c := by
    intro c pc hpc hand hmem
    rw [hpc] at hmem
    cases hmem
  cases h with
  | drop | accept | hello | join | start | read | readError | routeNoRoom | routeUnknown
    | finishBroadcast | finishTarget | leave | removeClient | tailRemove =>
    exact handler (empty rfl)
  | @routeBroadcast c _ _ packet _ hpc =>
    exact handler (broadcastTodo_own (hQ.origin c packet hpc))
  | @routeTarget c target _ _ packet _ hpc =>
    refine handler fun hand hmem _ => ?_
    rw [List.mem_singleton.mp hmem]
    exact hQ.origin c packet hpc
  | @discard c _ _ _ _ hpc | @enter c _ _ _ _ hpc | @dropData c _ _ _ _ hpc
    | @send c _ _ _ _ hpc | @giveUp c _ _ _ _ hpc =>
    refine handler fun hand hmem => hH.own c hand ?_
    rw [hpc]
    exact List.mem_cons_of_mem _ hmem
  | @block c _ _ _ _ hpc =>
    refine handler fun hand hmem => hH.own c hand ?_
    rw [hpc]
    exact hmem
  | _ => exact hH.own

/-- One step conserves the records between every two clients. -/
theorem conserved_step {cfg : Config} {s t : Server} {action : Action} (hmutex : Owners s)
    (hQ : Queues s) (hH : Handover s) (h : Transition cfg s action t) (a b : ConnId) :
    routedLog t.log a b=(endings t.log a b).map Prod.fst++pendingTo (t.handlers a) a b := by
  have hown := hH.own
  have hbefore := hH.conserved a b
  -- nothing is logged and no list of enqueue calls changes
  have same : ∀ {c pc},todoOf pc=todoOf (s.handlers c) →
      routedLog s.log a b=(endings s.log a b).map Prod.fst++
        pendingTo (Function.update s.handlers c pc a) a b := by
    intro c pc hpc
    unfold pendingTo at hbefore ⊢
    rw [update_field todoOf hpc]
    exact hbefore
  -- a routing step appends the same records to the log and to the list
  have select : ∀ {c todo underMu},todoOf (s.handlers c)=[] →
      (∀ hand∈todo,hand.2.replay=false → hand.2.sent.src=c) →
      routedLog (s.log++routedEvents todo) a b=
        (endings (s.log++routedEvents todo) a b).map Prod.fst++
          pendingTo (Function.update s.handlers c (.enqueuing todo underMu false) a) a b := by
    intro c todo underMu hidle htodo
    rw [routedLog_append,endings_append,routedLog_routedEvents,endings_routedEvents,
      List.append_nil,hbefore,List.append_assoc]
    congr 1
    unfold pendingTo
    by_cases hac : a=c
    · subst hac
      rw [Function.update_self,hidle,List.filterMap_nil,List.nil_append]
      rfl
    · have hnone : todo.filterMap (live a b)=[] :=
        List.filterMap_eq_nil_iff.mpr fun hand hmem => live_of_own (htodo hand hmem) hac
      rw [Function.update_of_ne hac,hnone,List.append_nil]
  -- an enqueue call that ends moves its record from the list to the log
  have move : ∀ {c hand todo underMu blocked event outcome},
      s.handlers c=.enqueuing (hand::todo) underMu blocked →
      ended event=some (hand,outcome) →
      routedLog (s.log++[event]) a b=(endings (s.log++[event]) a b).map Prod.fst++
        pendingTo (Function.update s.handlers c (.enqueuing todo underMu false) a) a b := by
    intro c hand todo underMu blocked event outcome hpc hevent
    have hlog : routedLog [event] a b=[] := by
      simp [routedLog,routedRecord_of_ended hevent]
    have hend : endings [event] a b=((live a b hand).map fun p => (p,outcome)).toList := by
      unfold endings
      rw [List.filterMap_cons,ending_eq,hevent,Option.bind_some,List.filterMap_nil]
      cases live a b hand <;> rfl
    rw [routedLog_append,endings_append,hlog,hend,List.append_nil,hbefore,List.map_append,
      List.append_assoc]
    congr 1
    unfold pendingTo
    by_cases hac : a=c
    · subst hac
      rw [Function.update_self,hpc]
      dsimp only [todoOf]
      rw [List.filterMap_cons]
      cases live a b hand <;> rfl
    · have hnone : live a b hand=none := by
        refine live_of_own (hown c hand ?_) hac
        rw [hpc]
        exact List.mem_cons_self
      rw [Function.update_of_ne hac,hnone]
      rfl
  cases h with
  | @writerTake c entry =>
    have hlog : routedLog [.taken c entry] a b=[] := rfl
    have hend : endings [.taken c entry] a b=[] := rfl
    rw [routedLog_append,endings_append,hlog,hend,List.append_nil,List.append_nil,hbefore]
  | drop _ hpc => exact same (todoOf_outside hpc).symm
  | accept hpc | hello hpc | join hpc | start hpc | read hpc | readError hpc | routeNoRoom hpc
    | routeUnknown hpc | finishBroadcast hpc | finishTarget hpc | leave hpc
    | removeClient hpc => exact same (by rw [hpc]; rfl)
  | @tailRemove c hmu => exact same (by rw [closing_of_remove hmutex hmu]; rfl)
  | @routeBroadcast c _ _ packet _ hpc =>
    exact select (by rw [hpc]; rfl) (broadcastTodo_own (hQ.origin c packet hpc))
  | @routeTarget c target _ _ packet _ hpc =>
    refine select (by rw [hpc]; rfl) fun hand hmem _ => ?_
    rw [List.mem_singleton.mp hmem]
    exact hQ.origin c packet hpc
  | block hpc => exact same (by rw [hpc]; rfl)
  | discard hpc | enter hpc | dropData hpc | send hpc | giveUp hpc => exact move hpc rfl
  | _ => exact hbefore

/-- The records that entered the queue of a client, in order. -/
def enteredLog (log : List Event) (b : ConnId) : List Entry :=
  log.filterMap fun event => match event with
    | .entered dst entry => if dst=b then some entry else none
    | _ => none

/-- The records that the writer of a client took, in order. -/
def takenLog (log : List Event) (b : ConnId) : List Entry :=
  log.filterMap fun event => match event with
    | .taken dst entry => if dst=b then some entry else none
    | _ => none

/-- What entered according to a longer log. -/
theorem enteredLog_append (log more : List Event) (b : ConnId) :
    enteredLog (log++more) b=enteredLog log b++enteredLog more b :=
  List.filterMap_append

/-- What was taken according to a longer log. -/
theorem takenLog_append (log more : List Event) (b : ConnId) :
    takenLog (log++more) b=takenLog log b++takenLog more b :=
  List.filterMap_append

/-- The invariant of what is logged about a queue. -/
structure QueueLog (s : Server) : Prop where
  /-- Only DATA records are dropped, and only on a full queue. -/
  dropped : ∀ b entry queued,.dropped b entry queued∈s.log →
    (parseHeader entry.sent.raw).typ=waTypeData ∧ queued=defaultOutQueue
  /-- Records are only discarded for a client that is being closed. -/
  discarded : ∀ b entry,.discarded b entry∈s.log →
    (s.conns b).accepted=true ∧ (s.conns b).done=true
  /-- A closed client has `done` closed. -/
  closedDone : ∀ b,(s.conns b).closed=true → (s.conns b).done=true
  /-- A client that was not accepted has an empty queue. -/
  fresh : ∀ b,(s.conns b).accepted=false → (s.conns b).out=[]
  /-- What entered a queue was taken from it or is in it, in order. -/
  fifo : ∀ b,enteredLog s.log b=takenLog s.log b++(s.conns b).out

/-- The log of a new server is in order. -/
theorem queueLog_newServer (key : List UInt8) : QueueLog (newServer key) where
  dropped b entry queued h := by cases h
  discarded b entry h := by cases h
  closedDone b h := by cases h
  fresh b _ := rfl
  fifo b := rfl

/-- One step drops only DATA records on a full queue. -/
theorem dropped_step {cfg : Config} {s t : Server} {action : Action} (hQ : Queues s)
    (hL : QueueLog s) (h : Transition cfg s action t) (b : ConnId) (entry : Entry) (queued : ℕ)
    (hmem : .dropped b entry queued∈t.log) :
    (parseHeader entry.sent.raw).typ=waTypeData ∧ queued=defaultOutQueue := by
  have append : ∀ {event},event≠.dropped b entry queued →
      .dropped b entry queued∈s.log++[event] → .dropped b entry queued∈s.log := by
    intro event hne hmem
    rcases List.mem_append.mp hmem with hmem | hmem
    · exact hmem
    · exact absurd (List.mem_singleton.mp hmem).symm hne
  have select : ∀ {todo},.dropped b entry queued∈s.log++routedEvents todo →
      .dropped b entry queued∈s.log := by
    intro todo hmem
    rcases List.mem_append.mp hmem with hmem | hmem
    · exact hmem
    · obtain ⟨hand,_,hhand⟩ := List.mem_map.mp hmem
      cases hhand
  cases h with
  | routeBroadcast | routeTarget => exact hL.dropped b entry queued (select hmem)
  | discard | enter | send | giveUp | writerTake =>
    exact hL.dropped b entry queued (append (by simp) hmem)
  | @dropData _ e entry' _ _ _ _ _ hfull hdata =>
    rcases List.mem_append.mp hmem with hmem | hmem
    · exact hL.dropped b entry queued hmem
    · cases List.mem_singleton.mp hmem
      exact ⟨hdata,Nat.le_antisymm (hQ.bounded _) hfull⟩
  | _ => exact hL.dropped b entry queued hmem

/-- One step keeps accepted clients accepted, and `done` closed for them. -/
theorem closing_step {cfg : Config} {s t : Server} {action : Action} (hI : Registry s)
    (h : Transition cfg s action t) (b : ConnId) (hacc : (s.conns b).accepted=true) :
    (t.conns b).accepted=true ∧ ((s.conns b).done=true → (t.conns b).done=true) := by
  have conn : ∀ {c cl},((s.conns c).accepted=true → cl.accepted=true ∧
        ((s.conns c).done=true → cl.done=true)) →
      (Function.update s.conns c cl b).accepted=true ∧
        ((s.conns b).done=true → (Function.update s.conns c cl b).done=true) := by
    intro c cl hcl
    by_cases hbc : b=c
    · subst hbc
      rw [Function.update_self]
      exact hcl hacc
    · rw [Function.update_of_ne hbc]
      exact ⟨hacc,fun hdone => hdone⟩
  cases h with
  | drop | enter | block | send | giveUp | closeOut | tailRemove | writerTake | writerError =>
    exact conn fun hc => ⟨hc,fun hdone => hdone⟩
  | join => exact conn fun _ => ⟨rfl,fun hdone => hdone⟩
  | closeDone => exact conn fun hc => ⟨hc,fun _ => rfl⟩
  | @hello c _ _ hpc =>
    refine conn fun hc => ?_
    rw [(hI.outside c (by rw [hpc]; rfl)).1] at hc
    cases hc
  | _ => exact ⟨hacc,fun hdone => hdone⟩

/-- One step discards only for clients that are being closed. -/
theorem discarded_step {cfg : Config} {s t : Server} {action : Action} (hI : Registry s)
    (hQ : Queues s) (hL : QueueLog s) (h : Transition cfg s action t) (b : ConnId)
    (entry : Entry) (hmem : .discarded b entry∈t.log) :
    (t.conns b).accepted=true ∧ (t.conns b).done=true := by
  have hstep := h
  have before : .discarded b entry∈s.log → (t.conns b).accepted=true ∧ (t.conns b).done=true := by
    intro hmem
    obtain ⟨hacc,hdone⟩ := hL.discarded b entry hmem
    obtain ⟨hacc',hdone'⟩ := closing_step hI hstep b hacc
    exact ⟨hacc',hdone' hdone⟩
  have last : ∀ {event},.discarded b entry∈s.log++[event] →
      .discarded b entry∈s.log ∨ event=.discarded b entry := by
    intro event hmem
    rcases List.mem_append.mp hmem with hmem | hmem
    · exact Or.inl hmem
    · exact Or.inr (List.mem_singleton.mp hmem).symm
  have target : ∀ {c e entry todo underMu blocked},
      s.handlers c=.enqueuing ((e,entry)::todo) underMu blocked →
      (s.conns e).accepted=true := by
    intro c e entry todo underMu blocked hpc
    refine hQ.targets c (e,entry) ?_
    rw [hpc]
    exact List.mem_cons_self
  cases h with
  | routeBroadcast | routeTarget =>
    rcases List.mem_append.mp hmem with hmem | hmem
    · exact before hmem
    · obtain ⟨hand,_,hhand⟩ := List.mem_map.mp hmem
      cases hhand
  | enter | dropData | send | writerTake =>
    rcases last hmem with hmem | hevent
    · exact before hmem
    · cases hevent
  | @discard c e entry' todo underMu hpc hfree hclosed =>
    rcases last hmem with hmem | hevent
    · exact before hmem
    · cases hevent
      exact ⟨target hpc,hL.closedDone _ hclosed⟩
  | @giveUp c e entry' todo underMu hpc hdone =>
    rcases last hmem with hmem | hevent
    · exact before hmem
    · cases hevent
      dsimp only
      rw [Function.update_self]
      exact ⟨target hpc,hdone⟩
  | _ => exact before hmem

/-- One step closes `done` before it closes a client. -/
theorem closedDone_step {cfg : Config} {s t : Server} {action : Action}
    (hL : QueueLog s) (h : Transition cfg s action t) (b : ConnId)
    (hb : (t.conns b).closed=true) : (t.conns b).done=true := by
  have conn : ∀ {c cl},(cl.closed=true → cl.done=true) →
      (Function.update s.conns c cl b).closed=true →
      (Function.update s.conns c cl b).done=true := by
    intro c cl hcl hclosed
    by_cases hbc : b=c
    · rw [hbc,Function.update_self] at hclosed ⊢
      exact hcl hclosed
    · rw [Function.update_of_ne hbc] at hclosed ⊢
      exact hL.closedDone b hclosed
  cases h with
  | drop | join | enter | block | send | giveUp | tailRemove | writerTake | writerError =>
    exact conn (hL.closedDone _) hb
  | hello => exact conn (fun h => by cases h) hb
  | closeDone => exact conn (fun _ => rfl) hb
  | closeOut _ hdone => exact conn (fun _ => hdone) hb
  | _ => exact hL.closedDone b hb

/-- One step leaves the queues of clients that were not accepted empty. -/
theorem fresh_step {cfg : Config} {s t : Server} {action : Action} (hQ : Queues s)
    (hL : QueueLog s) (h : Transition cfg s action t) (b : ConnId)
    (hb : (t.conns b).accepted=false) : (t.conns b).out=[] := by
  have conn : ∀ {c cl},(cl.accepted=false → cl.out=[]) →
      (Function.update s.conns c cl b).accepted=false →
      (Function.update s.conns c cl b).out=[] := by
    intro c cl hcl hacc
    by_cases hbc : b=c
    · rw [hbc,Function.update_self] at hacc ⊢
      exact hcl hacc
    · rw [Function.update_of_ne hbc] at hacc ⊢
      exact hL.fresh b hacc
  have target : ∀ {c e entry todo underMu blocked},
      s.handlers c=.enqueuing ((e,entry)::todo) underMu blocked →
      (s.conns e).accepted=true := by
    intro c e entry todo underMu blocked hpc
    refine hQ.targets c (e,entry) ?_
    rw [hpc]
    exact List.mem_cons_self
  cases h with
  | drop | block | giveUp | closeDone | closeOut | tailRemove | writerError =>
    exact conn (hL.fresh _) hb
  | hello => exact conn (fun _ => rfl) hb
  | join => exact conn (fun h => by cases h) hb
  | enter hpc | send hpc =>
    refine conn (fun hacc => ?_) hb
    dsimp only at hacc
    rw [target hpc] at hacc
    cases hacc
  | @writerTake c _ _ _ hout =>
    refine conn (fun hacc => ?_) hb
    rw [hL.fresh c hacc] at hout
    cases hout
  | _ => exact hL.fresh b hb

/-- One step keeps every queue first in, first out. -/
theorem fifo_step {cfg : Config} {s t : Server} {action : Action} (hI : Registry s)
    (hL : QueueLog s) (h : Transition cfg s action t) (b : ConnId) :
    enteredLog t.log b=takenLog t.log b++(t.conns b).out := by
  have hbefore := hL.fifo b
  have conn : ∀ {c cl},cl.out=(s.conns c).out →
      enteredLog s.log b=takenLog s.log b++(Function.update s.conns c cl b).out := by
    intro c cl hcl
    rw [update_field Client.out hcl,hbefore]
  -- events that neither enter nor take
  have silent : ∀ {events out},enteredLog events b=[] → takenLog events b=[] →
      (s.conns b).out=out →
      enteredLog (s.log++events) b=takenLog (s.log++events) b++out := by
    intro events out hentered htaken hout
    rw [enteredLog_append,takenLog_append,hentered,htaken,hbefore,hout,List.append_nil,
      List.append_nil]
  have select : ∀ {todo},enteredLog (s.log++routedEvents todo) b=
      takenLog (s.log++routedEvents todo) b++(s.conns b).out := by
    intro todo
    refine silent ?_ ?_ rfl <;>
    · unfold routedEvents
      first | unfold enteredLog | unfold takenLog
      rw [List.filterMap_map]
      exact List.filterMap_eq_nil_iff.mpr fun hand _ => rfl
  have enter : ∀ {c entry cl},cl.out=(s.conns c).out++[entry] →
      enteredLog (s.log++[.entered c entry]) b=
        takenLog (s.log++[.entered c entry]) b++(Function.update s.conns c cl b).out := by
    intro c entry cl hcl
    rw [enteredLog_append,takenLog_append,hbefore]
    by_cases hbc : b=c
    · subst hbc
      rw [Function.update_self,hcl]
      simp [enteredLog,takenLog]
    · rw [Function.update_of_ne hbc]
      simp [enteredLog,takenLog,Ne.symm hbc]
  cases h with
  | drop | join | block | closeDone | closeOut | tailRemove | writerError => exact conn rfl
  | @hello c _ _ hpc => exact conn (hL.fresh c (hI.outside c (by rw [hpc]; rfl)).1).symm
  | routeBroadcast | routeTarget => exact select
  | discard | dropData => exact silent rfl rfl rfl
  | giveUp => exact silent rfl rfl (update_field Client.out (by rfl) b).symm
  | enter | send => exact enter rfl
  | @writerTake c entry rest _ hout =>
    dsimp only
    rw [enteredLog_append,takenLog_append,hbefore]
    by_cases hbc : b=c
    · subst hbc
      rw [Function.update_self,hout]
      simp [enteredLog,takenLog]
    · rw [Function.update_of_ne hbc]
      simp [enteredLog,takenLog,Ne.symm hbc]
  | _ => exact hbefore

/-- All invariants of the hand-offs and queues. -/
structure Delivering (s : Server) : Prop where
  /-- Mutexes, room table and queues are in order. -/
  wired : Wired s
  /-- Records are conserved between selection and enqueue. -/
  handover : Handover s
  /-- The log of the queues is in order. -/
  queueLog : QueueLog s

/-- A new server satisfies all invariants. -/
theorem delivering_newServer (key : List UInt8) : Delivering (newServer key) :=
  ⟨wired_newServer key,⟨fun _ _ h => (List.not_mem_nil h).elim,fun _ _ => rfl⟩,
    queueLog_newServer key⟩

/-- One step preserves all invariants. -/
theorem delivering_step {cfg : Config} (s : Server) (action : Action) (t : Server)
    (hI : Delivering s) (h : step cfg s action=some t) : Delivering t := by
  obtain ⟨hW,hH,hL⟩ := hI
  have htransition := step_transition h
  exact ⟨wired_step s action t hW h,
    ⟨own_step hW.queues hH htransition,conserved_step hW.owners hW.queues hH htransition⟩,
    ⟨dropped_step hW.queues hL htransition,discarded_step hW.registry hW.queues hL htransition,
      closedDone_step hL htransition,fresh_step hW.queues hL htransition,
      fifo_step hW.registry hL htransition⟩⟩

end ChisLink.RelayServerDelivery
