import ChisLink.RelayServerRegistry

/-!
# Queues of the relay clients

Records are only handed to clients that `addClient` accepted, the mutex `outMu`
of a client is held exactly by the handler that is blocked on it, and no queue
outgrows its channel.
-/

namespace ChisLink.RelayServerQueue

open LabelledRuns RelayServerModel RelayServerStep RelayServerMutex RelayServerRegistry

/-- The enqueue calls a program counter still has to make. -/
def todoOf : HandlerPc → List (ConnId×Entry)
  | .enqueuing todo _ _ => todo
  | _ => []

/-- The client a program counter is blocked on. -/
def blockedOn : HandlerPc → Option ConnId
  | .enqueuing ((b,_)::_) _ true => some b
  | _ => none

/-- The invariant of the client queues. -/
structure Queues (s : Server) : Prop where
  /-- Every receiver that was selected had been accepted. -/
  targets : ∀ c,∀ hand∈todoOf (s.handlers c),(s.conns hand.1).accepted=true
  /-- A handler is blocked on a client exactly when it holds `outMu` of it. -/
  outMu : ∀ c b,blockedOn (s.handlers c)=some b ↔ (s.conns b).outMu=some c
  /-- A channel holds at most its capacity. -/
  bounded : ∀ b,(s.conns b).out.length≤defaultOutQueue
  /-- A record that is about to be routed was read from that connection. -/
  origin : ∀ c packet,s.handlers c=.routing packet → packet.src=c

/-- A handler outside a room has nothing to enqueue. -/
theorem todoOf_outside {pc : HandlerPc} (h : phase pc=.outside) : todoOf pc=[] := by
  cases pc <;> first | rfl | cases h

/-- A handler outside a room is blocked on nobody. -/
theorem blockedOn_outside {pc : HandlerPc} (h : phase pc=.outside) : blockedOn pc=none := by
  cases pc <;> first | rfl | cases h

/-- A handler that does not wait is blocked on nobody. -/
@[simp] theorem blockedOn_enqueuing (todo : List (ConnId×Entry)) (underMu : Bool) :
    blockedOn (.enqueuing todo underMu false)=none := by
  unfold blockedOn
  split
  · rename_i h
    cases h
  · rfl

/-- A handler is blocked on the receiver at the head of its list. -/
theorem blockedOn_eq_some {pc : HandlerPc} {b : ConnId} (h : blockedOn pc=some b) :
    ∃ entry todo underMu,pc=.enqueuing ((b,entry)::todo) underMu true := by
  unfold blockedOn at h
  split at h
  · cases h
    exact ⟨_,_,_,rfl⟩
  · cases h

/-- A client that a handler is blocked on had been accepted. -/
theorem Queues.accepted_of_outMu {s : Server} (hQ : Queues s) {b c : ConnId}
    (h : (s.conns b).outMu=some c) : (s.conns b).accepted=true := by
  obtain ⟨entry,todo,underMu,hpc⟩ := blockedOn_eq_some ((hQ.outMu c b).mpr h)
  refine hQ.targets c (b,entry) ?_
  rw [hpc]
  exact List.mem_cons_self

/-- A client whose handler has not joined has a free `outMu`. -/
theorem Queues.outMu_free {s : Server} (hQ : Queues s) (hI : Registry s) {c : ConnId}
    (h : phase (s.handlers c)=.outside) : (s.conns c).outMu=none := by
  cases hmu : (s.conns c).outMu with
  | none => rfl
  | some d =>
    have hacc := hQ.accepted_of_outMu hmu
    rw [(hI.outside c h).1] at hacc
    cases hacc

/-- The handler of a deferred removal in progress is inside its section. -/
theorem closing_of_remove {s : Server} (hmutex : Owners s) {todo : List ConnId} {c : ConnId}
    (h : s.mu=some (.closing todo (.remove c))) : s.handlers c=.closing := by
  have hc := hmutex c
  rw [h,owned,if_pos rfl] at hc
  unfold sectionOf at hc
  split at hc
  · cases hc
  · assumption
  · cases hc

/-- Everybody that a broadcast is for has been accepted. -/
theorem broadcastTodo_accepted {s : Server} (hI : Registry s) {c : ConnId} {r : Room}
    {packet : Sent} {order annOrder : List UInt16}
    (hroom : s.rooms.lookup (s.conns c).room=some r) (hc : (s.conns c).accepted=true) :
    ∀ hand∈broadcastTodo r (s.conns c).dev c packet order annOrder,
      (s.conns hand.1).accepted=true := by
  intro hand hmem
  unfold broadcastTodo at hmem
  rcases List.mem_append.mp hmem with hmem | hmem
  · split at hmem
    · obtain ⟨ann,_,rfl⟩ := List.mem_map.mp hmem
      exact hc
    · cases hmem
  · obtain ⟨d,hd,rfl⟩ := List.mem_map.mp hmem
    obtain ⟨dev,_,hdev⟩ := List.mem_filterMap.mp hd
    split at hdev
    · cases hdev
    · exact (hI.stored _ dev d (by rw [registered_of_room hroom,hdev])).2.2

/-- No queue of a new server is in use. -/
theorem queues_newServer (key : List UInt8) : Queues (newServer key) where
  targets c hand h := by cases h
  outMu c b := by simp [newServer,newClient,blockedOn]
  bounded b := by simp [newServer,newClient]
  origin c packet h := by cases h

/-- One step keeps the receivers that were selected accepted. -/
theorem targets_step {cfg : Config} {s t : Server} {action : Action} (hI : Registry s)
    (hQ : Queues s) (h : Transition cfg s action t) :
    ∀ c,∀ hand∈todoOf (t.handlers c),(t.conns hand.1).accepted=true := by
  -- nobody is selected anew, and accepted clients stay accepted
  have keep : ∀ {handlers : ConnId → HandlerPc} {conns : ConnId → Client},
      (∀ c,∀ hand∈todoOf (handlers c),hand∈todoOf (s.handlers c)) →
      (∀ x,(s.conns x).accepted=true → (conns x).accepted=true) →
      ∀ c,∀ hand∈todoOf (handlers c),(conns hand.1).accepted=true :=
    fun hsub hacc c hand hmem => hacc _ (hQ.targets c hand (hsub c hand hmem))
  have handler : ∀ {c pc},(∀ hand∈todoOf pc,hand∈todoOf (s.handlers c)) →
      ∀ d,∀ hand∈todoOf (Function.update s.handlers c pc d),hand∈todoOf (s.handlers d) := by
    intro c pc hsub d hand hmem
    by_cases hd : d=c
    · subst hd
      rw [Function.update_self] at hmem
      exact hsub hand hmem
    · rwa [Function.update_of_ne hd] at hmem
  have conn : ∀ {b cl},cl.accepted=(s.conns b).accepted →
      ∀ x,(s.conns x).accepted=true → (Function.update s.conns b cl x).accepted=true :=
    fun hcl x hx => (update_field Client.accepted hcl x).trans hx
  have empty : ∀ {c pc},todoOf pc=[] → ∀ hand∈todoOf pc,hand∈todoOf (s.handlers c) := by
    intro c pc hpc hand hmem
    rw [hpc] at hmem
    cases hmem
  have fresh : ∀ {c todo underMu},(∀ hand∈todo,(s.conns hand.1).accepted=true) →
      ∀ d,∀ hand∈todoOf (Function.update s.handlers c (.enqueuing todo underMu false) d),
        (s.conns hand.1).accepted=true := by
    intro c todo underMu htodo d hand hmem
    by_cases hd : d=c
    · subst hd
      rw [Function.update_self] at hmem
      exact htodo hand hmem
    · rw [Function.update_of_ne hd] at hmem
      exact hQ.targets d hand hmem
  cases h with
  | skip | ignore | rotateKey | writerSent | writerEnd | kickClient | deleteRoom | closeSkip | tailKick
    | tailDelete => exact hQ.targets
  | writerTake | writerError | closeDone | closeOut =>
    exact keep (fun _ _ h => h) (conn rfl)
  | drop | tailRemove => exact keep (handler (empty rfl)) (conn rfl)
  | @hello c _ _ hpc =>
    refine keep (handler (empty rfl)) fun x hx => ?_
    dsimp only
    by_cases hxc : x=c
    · rw [hxc,(hI.outside c (by rw [hpc]; rfl)).1] at hx
      cases hx
    · rw [Function.update_of_ne hxc,hx]
  | @join c =>
    refine keep (handler (empty rfl)) fun x hx => ?_
    dsimp only
    by_cases hxc : x=c
    · rw [hxc,Function.update_self]
    · rw [Function.update_of_ne hxc,hx]
  | @routeBroadcast c _ _ _ _ hpc _ hroom =>
    exact fresh (broadcastTodo_accepted hI hroom (hI.inside c (by rw [hpc]; rfl)))
  | @routeTarget c target _ _ packet _ hpc _ hroom _ htarget =>
    refine fresh fun hand hmem => ?_
    rw [List.mem_singleton.mp hmem]
    exact (hI.stored _ _ target (by rw [registered_of_room hroom,htarget])).2.2
  | discard hpc | dropData hpc =>
    exact keep (handler fun hand h => by rw [hpc]; exact List.mem_cons_of_mem _ h)
      (fun _ h => h)
  | enter hpc | send hpc | giveUp hpc =>
    exact keep (handler fun hand h => by rw [hpc]; exact List.mem_cons_of_mem _ h) (conn rfl)
  | block hpc => exact keep (handler fun hand h => by rw [hpc]; exact h) (conn rfl)
  | _ => exact keep (handler (empty rfl)) (fun _ h => h)

/-- One step preserves the holders of `outMu`. -/
theorem outMu_step {cfg : Config} {s t : Server} {action : Action} (hmutex : Owners s)
    (hI : Registry s) (hQ : Queues s) (h : Transition cfg s action t) (d e : ConnId) :
    blockedOn (t.handlers d)=some e ↔ (t.conns e).outMu=some d := by
  have same : ∀ {c b pc cl},blockedOn pc=blockedOn (s.handlers c) →
      cl.outMu=(s.conns b).outMu →
      (blockedOn (Function.update s.handlers c pc d)=some e ↔
        (Function.update s.conns b cl e).outMu=some d) := by
    intro c b pc cl hpc hcl
    rw [update_field blockedOn hpc,update_field Client.outMu hcl,hQ.outMu]
  have sameHandler : ∀ {c pc},blockedOn pc=blockedOn (s.handlers c) →
      (blockedOn (Function.update s.handlers c pc d)=some e ↔ (s.conns e).outMu=some d) := by
    intro c pc hpc
    rw [update_field blockedOn hpc,hQ.outMu]
  have sameConn : ∀ {b cl},cl.outMu=(s.conns b).outMu →
      (blockedOn (s.handlers d)=some e ↔ (Function.update s.conns b cl e).outMu=some d) := by
    intro b cl hcl
    rw [update_field Client.outMu hcl,hQ.outMu]
  -- a send that ends releases the mutex that its handler held
  have released : ∀ {c b pc cl},blockedOn (s.handlers c)=some b → blockedOn pc=none →
      cl.outMu=none → (blockedOn (Function.update s.handlers c pc d)=some e ↔
        (Function.update s.conns b cl e).outMu=some d) := by
    intro c b pc cl hblocked hpc hcl
    have hde := hQ.outMu d e
    have hcb := (hQ.outMu c b).mp hblocked
    by_cases hd : d=c <;> by_cases he : e=b <;> grind [Function.update_apply]
  cases h with
  | writerTake | writerError | closeDone | closeOut => exact sameConn rfl
  | drop _ hpc => exact same (blockedOn_outside hpc).symm rfl
  | accept hpc | start hpc | read hpc | readError hpc | routeNoRoom hpc | routeUnknown hpc
    | routeTarget hpc | leave hpc | removeClient hpc => exact sameHandler (by rw [hpc]; rfl)
  | routeBroadcast hpc => exact sameHandler (by rw [hpc,blockedOn_enqueuing]; rfl)
  | @finishBroadcast c blocked hpc | @finishTarget c blocked hpc =>
    exact sameHandler (by rw [hpc]; cases blocked <;> rfl)
  | @hello c _ _ hpc =>
    exact same (by rw [hpc]; rfl) (hQ.outMu_free hI (by rw [hpc]; rfl)).symm
  | join hpc => exact same (by rw [hpc]; rfl) rfl
  | discard hpc | dropData hpc =>
    exact sameHandler (by rw [hpc,blockedOn_enqueuing,blockedOn_enqueuing])
  | enter hpc => exact same (by rw [hpc,blockedOn_enqueuing,blockedOn_enqueuing]) rfl
  | @block c b entry todo underMu hpc hfree =>
    have hde := hQ.outMu d e
    have hblocked : blockedOn (.enqueuing ((b,entry)::todo) underMu true)=some b := rfl
    have hbefore : blockedOn (s.handlers c)=none := by rw [hpc,blockedOn_enqueuing]
    dsimp only
    by_cases hd : d=c <;> by_cases he : e=b <;> grind [Function.update_apply]
  | send hpc | giveUp hpc =>
    exact released (by rw [hpc]; rfl) (blockedOn_enqueuing _ _) rfl
  | @tailRemove c hmu =>
    exact same (by rw [closing_of_remove hmutex hmu]; rfl) rfl
  | _ => exact hQ.outMu d e

/-- One step preserves the bound of every queue. -/
theorem bounded_step {cfg : Config} {s t : Server} {action : Action}
    (hQ : Queues s) (h : Transition cfg s action t) (e : ConnId) :
    (t.conns e).out.length≤defaultOutQueue := by
  have conn : ∀ {b cl},cl.out.length≤defaultOutQueue →
      (Function.update s.conns b cl e).out.length≤defaultOutQueue := by
    intro b cl hcl
    by_cases he : e=b
    · rwa [he,Function.update_self]
    · rw [Function.update_of_ne he]
      exact hQ.bounded e
  cases h with
  | drop | join | block | giveUp | closeDone | closeOut | tailRemove | writerError =>
    exact conn (hQ.bounded _)
  | hello => exact conn (Nat.zero_le _)
  | enter _ _ _ hspace | send _ hspace =>
    refine conn ?_
    rw [List.length_append,List.length_singleton]
    omega
  | @writerTake c entry rest _ hout =>
    have hlength := hQ.bounded c
    rw [hout,List.length_cons] at hlength
    exact conn (by dsimp only; omega)
  | _ => exact hQ.bounded e

/-- One step preserves the origin of the records that are about to be routed. -/
theorem origin_step {cfg : Config} {s t : Server} {action : Action} (hQ : Queues s)
    (h : Transition cfg s action t) (d : ConnId) (packet : Sent)
    (hd : t.handlers d=.routing packet) : packet.src=d := by
  have handler : ∀ {c pc},(∀ p,pc≠.routing p) →
      Function.update s.handlers c pc d=.routing packet → packet.src=d := by
    intro c pc hne hset
    by_cases hdc : d=c
    · rw [hdc,Function.update_self] at hset
      exact absurd hset (hne packet)
    · rw [Function.update_of_ne hdc] at hset
      exact hQ.origin d packet hset
  cases h with
  | skip | ignore | rotateKey | kickClient | deleteRoom | closeDone | closeOut | closeSkip | tailKick
    | tailDelete | writerTake | writerSent | writerError | writerEnd => exact hQ.origin d packet hd
  | @read c raw =>
    by_cases hdc : d=c
    · dsimp only at hd
      rw [hdc,Function.update_self] at hd
      cases hd
      exact hdc.symm
    · dsimp only at hd
      rw [Function.update_of_ne hdc] at hd
      exact hQ.origin d packet hd
  | _ =>
    exact handler (by simp) hd

/-- One step preserves the invariant of the queues. -/
theorem queues_step {cfg : Config} {s t : Server} {action : Action} (hmutex : Owners s)
    (hI : Registry s) (hQ : Queues s) (h : Transition cfg s action t) : Queues t :=
  ⟨targets_step hI hQ h,outMu_step hmutex hI hQ h,bounded_step hQ h,origin_step hQ h⟩

/-- All invariants of the mutexes, the room table and the queues. -/
structure Wired (s : Server) : Prop where
  /-- The mutex `s.mu` has the owner the program counters say. -/
  owners : Owners s
  /-- The room table is in order. -/
  registry : Registry s
  /-- The queues are in order. -/
  queues : Queues s

/-- A new server satisfies all invariants. -/
theorem wired_newServer (key : List UInt8) : Wired (newServer key) :=
  ⟨owners_newServer key,registry_newServer key,queues_newServer key⟩

/-- One step preserves all invariants. -/
theorem wired_step {cfg : Config} (s : Server) (action : Action) (t : Server) (hI : Wired s)
    (h : step cfg s action=some t) : Wired t :=
  have htransition := step_transition h
  ⟨owners_step hI.owners htransition,registry_step hI.owners hI.registry htransition,
    queues_step hI.owners hI.registry hI.queues htransition⟩

end ChisLink.RelayServerQueue
