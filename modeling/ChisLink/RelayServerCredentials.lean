import ChisLink.RelayServerReplay

/-!
# Rooms and credentials of the relay

A record is only ever handed to a client that joined under the room name of its sender,
stored announcements included. And whoever joined has answered the nonce of its own
connection with the server key that was in force then.
-/

namespace ChisLink.RelayServerCredentials

open LabelledRuns RelayServerModel RelayServerStep RelayServerMutex RelayServerRegistry
  RelayServerQueue RelayServerIncarnation RelayServerDelivery RelayServerReplay

section Isolation

variable {cfg : Config} {s t : Server} {action : Action}

/-- Sender and receiver of a hand-off have joined under the same room name. -/
structure Together (s : Server) (hand : ConnId×Entry) : Prop where
  /-- The receiver has joined. -/
  receiver : (s.conns hand.1).accepted=true
  /-- So has the sender. -/
  sender : (s.conns hand.2.sent.src).accepted=true
  /-- The rooms agree. -/
  room : (s.conns hand.1).room=(s.conns hand.2.sent.src).room

/-- The hand-off that an event is about. -/
def handOf : Event → ConnId×Entry
  | .routed dst entry => (dst,entry)
  | .entered dst entry => (dst,entry)
  | .dropped dst entry _ => (dst,entry)
  | .discarded dst entry => (dst,entry)
  | .taken dst entry => (dst,entry)

/-- Every hand-off that is to be done or was logged stays in a room. -/
structure Isolated (s : Server) : Prop where
  /-- Those that a handler still has to do. -/
  todo : ∀ c,∀ hand∈todoOf (s.handlers c),Together s hand
  /-- Those in the log. -/
  log : ∀ event∈s.log,Together s (handOf event)

theorem Together.step (hI : Registry s) (h : Transition cfg s action t) {hand : ConnId×Entry}
    (ht : Together s hand) : Together t hand := by
  obtain ⟨hreceiver,hplace⟩ := place_step hI h ht.receiver
  obtain ⟨hsender,hplace'⟩ := place_step hI h ht.sender
  refine ⟨hreceiver,hsender,?_⟩
  exact (congrArg Prod.fst hplace).trans (ht.room.trans (congrArg Prod.fst hplace').symm)

/-- What `routePacket` selects stays in the room of the record in hand. -/
theorem selected_together (hI : Registry s) (hQ : Queues s) (hF : Fresh s) {c : ConnId}
    {packet : Sent} {r : Room} (hpc : s.handlers c=.routing packet)
    (hroom : s.rooms.lookup (s.conns c).room=some r) (order annOrder : List UInt16) :
    ∀ hand∈selected r (s.conns c).dev c packet order annOrder,Together s hand := by
  intro hand h
  have hsrc := hQ.origin c packet hpc
  have hacc := hI.inside c (by rw [hpc]; rfl)
  rcases selected_cases h with ⟨d,x,hx,rfl⟩ | ⟨d,ann,hann,rfl⟩
  · obtain ⟨hxroom,-,hxacc⟩ :=
      hI.stored (s.conns c).room d x (by rw [registered_of_room hroom,hx])
    refine ⟨hxacc,?_,?_⟩ <;> dsimp only <;> rw [hsrc]
    · exact hacc
    · exact hxroom
  · have hstored : announced s.rooms (s.conns c).room d=some ann := by
      unfold announced
      rw [hroom]
      exact hann
    obtain ⟨-,hsender,hsame,-⟩ := hF.place _ d ann hstored
    exact ⟨hacc,hsender,hsame.symm⟩

theorem broadcast_together (hI : Registry s) (hQ : Queues s) (hF : Fresh s) {c : ConnId}
    {packet : Sent} {r : Room} (hpc : s.handlers c=.routing packet)
    (hroom : s.rooms.lookup (s.conns c).room=some r)
    (hbroadcast : isBroadcast (parseHeader packet.raw)=true) (order annOrder : List UInt16) :
    ∀ hand∈broadcastTodo r (s.conns c).dev c packet order annOrder,Together s hand := by
  have h := selected_together hI hQ hF hpc hroom order annOrder
  unfold selected at h
  rwa [if_pos hbroadcast] at h

theorem target_together (hI : Registry s) (hQ : Queues s) (hF : Fresh s) {c target : ConnId}
    {packet : Sent} {r : Room} (hpc : s.handlers c=.routing packet)
    (hroom : s.rooms.lookup (s.conns c).room=some r)
    (hbroadcast : isBroadcast (parseHeader packet.raw)=false)
    (htarget : r.clients.lookup (parseHeader packet.raw).target=some target) :
    Together s (target,⟨packet,false⟩) := by
  refine selected_together hI hQ hF hpc hroom [] [] _ ?_
  unfold selected
  rw [hbroadcast,htarget]
  exact List.mem_singleton_self _

/-- An event about a hand-off that is known or was just selected. -/
theorem log_append (hbefore : ∀ event∈s.log,Together s (handOf event)) {events : List Event}
    (h : ∀ event∈events,Together s (handOf event)) :
    ∀ event∈s.log++events,Together s (handOf event) := by
  intro event hmem
  rcases List.mem_append.mp hmem with hmem | hmem
  · exact hbefore event hmem
  · exact h event hmem

/-- What a writer takes had entered the queue. -/
theorem taken_together (hL : QueueLog s) (hS : Isolated s) {c : ConnId} {entry : Entry}
    {rest : List Entry} (hout : (s.conns c).out=entry::rest) : Together s (c,entry) := by
  have hmem : entry∈enteredLog s.log c := by
    rw [hL.fifo c,hout]
    exact List.mem_append_right _ List.mem_cons_self
  obtain ⟨event,hevent,hsome⟩ := List.mem_filterMap.mp hmem
  cases event with
  | entered dst e =>
    dsimp only at hsome
    split at hsome
    next hdst =>
      cases hsome
      exact hdst▸hS.log _ hevent
    next => cases hsome
  | _ => cases hsome

theorem log_step (hI : Registry s) (hQ : Queues s) (hF : Fresh s) (hL : QueueLog s)
    (hS : Isolated s) (h : Transition cfg s action t) :
    ∀ event∈t.log,Together s (handOf event) := by
  have one : ∀ {event},Together s (handOf event) →
      ∀ event'∈s.log++[event],Together s (handOf event') := fun hevent =>
    log_append hS.log fun _ hmem => List.mem_singleton.mp hmem▸hevent
  cases h with
  | @routeBroadcast c order annOrder packet r hpc _ hroom _ _ hbroadcast =>
    refine log_append hS.log fun event hmem => ?_
    obtain ⟨hand,hhand,rfl⟩ := List.mem_map.mp hmem
    exact broadcast_together hI hQ hF hpc hroom hbroadcast order annOrder hand hhand
  | @routeTarget c target order annOrder packet r hpc _ hroom hbroadcast htarget =>
    exact one (target_together hI hQ hF hpc hroom hbroadcast htarget)
  | @discard c _ _ _ _ hpc | @enter c _ _ _ _ hpc | @dropData c _ _ _ _ hpc
    | @send c _ _ _ _ hpc | @giveUp c _ _ _ _ hpc =>
    refine one (hS.todo c _ ?_)
    rw [hpc]
    exact List.mem_cons_self
  | writerTake _ hout => exact one (taken_together hL hS hout)
  | _ => exact hS.log

theorem todo_step (hI : Registry s) (hQ : Queues s) (hF : Fresh s) (hS : Isolated s)
    (h : Transition cfg s action t) (d : ConnId) :
    ∀ hand∈todoOf (t.handlers d),Together s hand := by
  have handler : ∀ {c pc},(∀ hand∈todoOf pc,Together s hand) →
      ∀ hand∈todoOf (Function.update s.handlers c pc d),Together s hand := by
    intro c pc hpc
    by_cases hd : d=c
    · rwa [hd,Function.update_self]
    · rw [Function.update_of_ne hd]
      exact hS.todo d
  have empty : ∀ {pc},todoOf pc=[] → ∀ hand∈todoOf pc,Together s hand := by
    intro pc hpc hand hmem
    rw [hpc] at hmem
    cases hmem
  cases h with
  | drop | accept | hello | join | start | read | readError | routeNoRoom | routeUnknown
    | finishBroadcast | finishTarget | leave | removeClient | tailRemove =>
    exact handler (empty rfl)
  | @routeBroadcast c order annOrder packet r hpc _ hroom _ _ hbroadcast =>
    exact handler (broadcast_together hI hQ hF hpc hroom hbroadcast order annOrder)
  | @routeTarget c target order annOrder packet r hpc _ hroom hbroadcast htarget =>
    refine handler fun hand hmem => ?_
    rw [List.mem_singleton.mp hmem]
    exact target_together hI hQ hF hpc hroom hbroadcast htarget
  | @discard c _ _ _ _ hpc | @enter c _ _ _ _ hpc | @dropData c _ _ _ _ hpc
    | @send c _ _ _ _ hpc | @giveUp c _ _ _ _ hpc =>
    refine handler fun hand hmem => hS.todo c hand ?_
    rw [hpc]
    exact List.mem_cons_of_mem _ hmem
  | @block c _ _ _ _ hpc =>
    refine handler fun hand hmem => hS.todo c hand ?_
    rw [hpc]
    exact hmem
  | _ => exact hS.todo d

/-- In every run each record that was selected for a client, queued, dropped, discarded or
written came from a client that had joined under the same room name. -/
theorem records_stay_in_rooms {key : List UInt8} {trace : List (Server×Action)} {last : Server}
    (run : ServerRun cfg key trace last) :
    ∀ event∈last.log,Together last (handOf event) := by
  have hisolated : Isolated last := by
    induction run with
    | nil => exact ⟨fun _ _ h => (List.not_mem_nil h).elim,fun _ h => (List.not_mem_nil h).elim⟩
    | @snoc trace s t action run henabled ih =>
      obtain ⟨hW,-,hF,-⟩ := recorded_run run
      have hL := (run.invariant (delivering_newServer key) delivering_step).queueLog
      have h := step_transition henabled
      exact ⟨fun d hand hmem =>
          (todo_step hW.registry hW.queues hF ih h d hand hmem).step hW.registry h,
        fun event hmem =>
          (log_step hW.registry hW.queues hF hL ih h event hmem).step hW.registry h⟩
  exact hisolated.log

/-- An announcement that was stored and asked for stays in its room. -/
theorem announcement_stays_in_room : ∃ trace last,ServerRun sampleConfig [] trace last ∧
    last.log≠[] ∧ ∀ event∈last.log,Together last (handOf event) := by
  obtain ⟨last,hexec,hlog⟩ := Option.map_eq_some_iff.mp
    (show (exec (step sampleConfig) (newServer []) announceDiscover).map
      (fun s => s.log.isEmpty)=some false by rfl)
  obtain ⟨trace,run⟩ := Run.nil.exec hexec
  exact ⟨trace,last,run,List.isEmpty_eq_false_iff.mp hlog,records_stay_in_rooms run⟩

end Isolation

section Authentication

variable {cfg : Config} {s t : Server} {action : Action} {c : ConnId}

/-- What a client presented about itself. -/
def credentials (cl : Client) : UInt16×RoomName×List UInt8 := (cl.dev,cl.room,cl.roomAuth)

/-- The client hello of a connection answered the nonce sent to it, under the key that the
server had at that step, and it is what the client is known by. -/
def Proven (cfg : Config) (trace : List (Server×Action)) (c : ConnId) (cl : Client) : Prop :=
  ∃ s t nonce clientHello,(s,.accept c nonce)∈trace ∧ (t,.hello c clientHello)∈trace ∧
    clientHello.take 4=helloMagic ∧
    helloClientAuth clientHello=
      computeAuth cfg t.key nonce (helloDev clientHello) (helloRoom clientHello) ∧
    credentials cl=(helloDev clientHello,helloRoom clientHello,helloRoomAuth clientHello)

/-- The hello of the connection was checked. -/
def Checked (s : Server) (c : ConnId) : Prop :=
  s.handlers c=.addingClient ∨ (s.conns c).accepted=true

/-- A handler is before `addClient` after a step only if it was before, or if its connection
was accepted or its hello checked. -/
theorem handler_step (h : Transition cfg s action t) (c : ConnId) :
    t.handlers c=s.handlers c ∨ (∃ nonce,action=.accept c nonce ∧ t.handlers c=.handshake nonce) ∨
      (∃ clientHello,action=.hello c clientHello ∧ t.handlers c=.addingClient) ∨
      (∀ nonce,t.handlers c≠.handshake nonce) ∧ t.handlers c≠.addingClient := by
  have past : ∀ {d pc},(∀ nonce,pc≠.handshake nonce) ∧ pc≠.addingClient →
      Function.update s.handlers d pc c=s.handlers c ∨
      (∃ nonce,action=.accept c nonce ∧ Function.update s.handlers d pc c=.handshake nonce) ∨
      (∃ clientHello,action=.hello c clientHello ∧
        Function.update s.handlers d pc c=.addingClient) ∨
      (∀ nonce,Function.update s.handlers d pc c≠.handshake nonce) ∧
        Function.update s.handlers d pc c≠.addingClient := by
    intro d pc hpc
    by_cases heq : c=d
    · rw [heq,Function.update_self]
      exact .inr (.inr (.inr hpc))
    · exact .inl (Function.update_of_ne heq _ _)
  cases h with
  | @accept d nonce | @hello d nonce clientHello =>
    by_cases heq : c=d
    · subst heq
      first
        | exact .inr (.inl ⟨nonce,rfl,Function.update_self _ _ _⟩)
        | exact .inr (.inr (.inl ⟨clientHello,rfl,Function.update_self _ _ _⟩))
    · exact .inl (Function.update_of_ne heq _ _)
  | drop | join | start | read | readError | routeNoRoom | routeBroadcast | routeUnknown
    | routeTarget | discard | enter | dropData | block | send | giveUp | finishBroadcast
    | finishTarget | leave | removeClient | tailRemove => exact past (by simp)
  | _ => exact .inl rfl

theorem credentials_step (h : Transition cfg s action t) (c : ConnId) :
    credentials (t.conns c)=credentials (s.conns c) ∨
      ∃ clientHello,action=.hello c clientHello := by
  cases h with
  | drop | join | enter | block | send | giveUp | closeDone | closeOut | tailRemove | writerTake
    | writerError => exact .inl (update_field credentials (by rfl) c)
  | @hello d _ clientHello =>
    by_cases heq : c=d
    · exact .inr ⟨clientHello,by rw [heq]⟩
    · exact .inl (congrArg credentials (Function.update_of_ne heq _ s.conns))
  | _ => exact .inl rfl

theorem checked_step (h : Transition cfg s action t) (hc : Checked t c) :
    Checked s c ∨ ∃ clientHello,action=.hello c clientHello := by
  rcases hc with hpc | hacc
  · rcases handler_step h c with hsame | ⟨nonce,-,haccept⟩ | hhello | ⟨-,hpast⟩
    · exact .inl (.inl (hsame.symm.trans hpc))
    · rw [haccept] at hpc
      cases hpc
    · exact .inr ⟨_,hhello.choose_spec.1⟩
    · exact absurd hpc hpast
  · cases h with
    | @join d _ hadding =>
      by_cases heq : c=d
      · exact .inl (.inl (heq▸hadding))
      · dsimp only at hacc
        rw [Function.update_of_ne heq] at hacc
        exact .inl (.inr hacc)
    | @hello d _ clientHello =>
      by_cases heq : c=d
      · exact .inr ⟨clientHello,by rw [heq]⟩
      · dsimp only at hacc
        rw [Function.update_of_ne heq] at hacc
        exact .inl (.inr hacc)
    | drop | enter | block | send | giveUp | closeDone | closeOut | tailRemove | writerTake
      | writerError =>
      exact .inl (.inr ((update_field Client.accepted (by rfl) c).symm.trans hacc))
    | _ => exact .inl (.inr hacc)

/-- A hello after which the client goes on was checked with the key of the server. -/
theorem hello_proven (hI : Registry s) {clientHello : List UInt8}
    (h : step cfg s (.hello c clientHello)=some t) (hc : Checked t c) :
    ∃ nonce,s.handlers c=.handshake nonce ∧ clientHello.take 4=helloMagic ∧
      helloClientAuth clientHello=
        computeAuth cfg s.key nonce (helloDev clientHello) (helloRoom clientHello) ∧
      credentials (t.conns c)=
        (helloDev clientHello,helloRoom clientHello,helloRoomAuth clientHello) := by
  simp only [step,hello] at h
  split at h
  next nonce hpc =>
    have hout := hI.outside c (by rw [hpc]; rfl)
    have refused : ∀ {stats},dropConn s c stats=t → False := by
      rintro stats rfl
      rcases hc with hgone | hacc
      · change Function.update s.handlers c .gone c=.addingClient at hgone
        rw [Function.update_self] at hgone
        cases hgone
      · change (Function.update s.conns c _ c).accepted=true at hacc
        rw [Function.update_self,hout.1] at hacc
        cases hacc
    split at h
    · cases h
    split at h
    · exact (refused (Option.some.inj h)).elim
    next hmagic =>
      split at h
      · exact (refused (Option.some.inj h)).elim
      split at h
      · exact (refused (Option.some.inj h)).elim
      next hauth =>
        cases h
        refine ⟨nonce,hpc,not_not.mp fun hne => hmagic (.inl hne),not_not.mp hauth,?_⟩
        dsimp only
        rw [Function.update_self]
        rfl
  next => cases h

/-- In every run whoever joined had proved the server key of that moment over the nonce of
its own connection, with the device id, the room and the room auth it is known by. -/
theorem members_are_authenticated {key : List UInt8} {trace : List (Server×Action)}
    {last : Server} (run : ServerRun cfg key trace last) :
    ∀ c,(last.conns c).accepted=true → Proven cfg trace c (last.conns c) := by
  have hall : (∀ c nonce,last.handlers c=.handshake nonce → ∃ s,(s,.accept c nonce)∈trace) ∧
      ∀ c,Checked last c → Proven cfg trace c (last.conns c) := by
    induction run with
    | nil =>
      refine ⟨fun c nonce h => by (cases h),fun c h => ?_⟩
      rcases h with h | h <;> cases h
    | @snoc trace s t action run henabled ih =>
      obtain ⟨hnonces,hproven⟩ := ih
      have h := step_transition henabled
      refine ⟨fun c nonce hc => ?_,fun c hc => ?_⟩
      · rcases handler_step h c with hsame | ⟨nonce',rfl,haccept⟩ | ⟨-,-,hadding⟩ | ⟨hpast,-⟩
        · obtain ⟨u,hu⟩ := hnonces c nonce (hsame.symm.trans hc)
          exact ⟨u,List.mem_append_left _ hu⟩
        · cases haccept.symm.trans hc
          exact ⟨s,List.mem_append_right _ List.mem_cons_self⟩
        · cases hadding.symm.trans hc
        · exact absurd hc (hpast nonce)
      · have hhello : (∃ clientHello,action=.hello c clientHello) →
            Proven cfg (trace++[(s,action)]) c (t.conns c) := by
          rintro ⟨clientHello,rfl⟩
          obtain ⟨nonce,hpc,hmagic,hauth,hshown⟩ :=
            hello_proven (recorded_run run).wired.registry henabled hc
          obtain ⟨u,hu⟩ := hnonces c nonce hpc
          exact ⟨u,s,nonce,clientHello,List.mem_append_left _ hu,
            List.mem_append_right _ List.mem_cons_self,hmagic,hauth,hshown⟩
        rcases checked_step h hc with hbefore | hnow
        · rcases credentials_step h c with hsame | hnow
          · obtain ⟨u,v,nonce,clientHello,hu,hv,hmagic,hauth,hshown⟩ := hproven c hbefore
            exact ⟨u,v,nonce,clientHello,List.mem_append_left _ hu,List.mem_append_left _ hv,
              hmagic,hauth,hsame.trans hshown⟩
          · exact hhello hnow
        · exact hhello hnow
  exact fun c hc => hall.2 c (.inr hc)

theorem announcer_is_authenticated : ∃ trace last,ServerRun sampleConfig [] trace last ∧
    Proven sampleConfig trace 0 (last.conns 0) := by
  obtain ⟨last,hexec,hacc⟩ := Option.map_eq_some_iff.mp
    (show (exec (step sampleConfig) (newServer []) announceDiscover).map
      (fun s => (s.conns 0).accepted)=some true by rfl)
  obtain ⟨trace,run⟩ := Run.nil.exec hexec
  exact ⟨trace,last,run,members_are_authenticated run 0 hacc⟩

end Authentication

end ChisLink.RelayServerCredentials
