import Mathlib.Data.Finset.Card
import Mathlib.Data.List.Nodup
import ChisLink.RelayServerRooms

/-!
# The limit of registered clients

The accept loop compares `max-clients` with a counter that a handler increments after its
client has joined and decrements before it is removed. Handshakes that are under way and
removals that have not finished are not counted, so the number of registered clients
stays within the limit exactly as long as no client joins when as many are registered.
-/

namespace ChisLink.RelayServerLimit

open LabelledRuns KeyedSums RelayServerModel RelayServerStep RelayServerMutex
  RelayServerRegistry RelayServerQueue RelayServerIncarnation RelayServerRooms

/-- Number of registered clients. -/
def registeredCount (rooms : Rooms) : ℕ := total (fun r => size r.clients) rooms

/-- The client limit holds. -/
def WithinLimit (cfg : Config) (s : Server) : Prop := registeredCount s.rooms≤ cfg.maxClients

/-- A client joins only when fewer clients are registered than the limit. -/
def JoinsBelow (cfg : Config) (s : Server) (action : Action) : Prop :=
  ∀ c,action=.addClient c →
    (addClientTable cfg s.rooms (s.conns c).room (s.conns c).roomAuth (s.conns c).dev c).2=true →
      registeredCount s.rooms<cfg.maxClients

/-- A handler goroutine is running. -/
def Running (pc : HandlerPc) : Prop := pc≠.absent ∧ pc≠.gone

/-- The accept loop lets a connection in only while fewer handlers are running than the
limit. -/
def AcceptsBelow (cfg : Config) (s : Server) (action : Action) : Prop :=
  ∀ c nonce,action=.accept c nonce → s.stats.clients<cfg.maxClients →
    ∀ handlers : Finset ConnId,(∀ x∈handlers,Running (s.handlers x)) →
      handlers.card<cfg.maxClients

section Counts

variable {cfg : Config} {rooms rooms' : Rooms} {room : RoomName}

/-- A room that replaces one. -/
theorem count_replace {r : Room} (hroom : rooms.lookup room=some r) (r' : Room) :
    registeredCount (rooms.insert room r')+size r.clients=
      registeredCount rooms+size r'.clients := by
  unfold registeredCount
  rw [total_insert,total_of_lookup hroom]
  omega

/-- A join adds one client. -/
theorem count_addClient {roomAuth : List UInt8} {dev : UInt16} {c : ConnId}
    (hadd : addClient cfg rooms room roomAuth dev c=some rooms') :
    registeredCount rooms'=registeredCount rooms+1 := by
  unfold addClient at hadd
  cases hroom : rooms.lookup room with
  | none =>
    rw [hroom] at hadd
    dsimp only at hadd
    split at hadd
    · cases hadd
    split at hadd
    · cases hadd
    split at hadd <;> cases hadd
    have hlookup : (∅ : AList fun _ : UInt16 => ConnId).lookup dev=none :=
      AList.lookup_empty dev
    have hone := size_insert_of_none (b := c) hlookup
    have hzero : size (∅ : AList fun _ : UInt16 => ConnId)=0 := rfl
    unfold registeredCount
    rw [total_insert,total_erase_of_none hroom]
    dsimp only
    omega
  | some r =>
    rw [hroom] at hadd
    dsimp only at hadd
    split at hadd
    · cases hadd
    split at hadd
    · cases hadd
    split at hadd
    · cases hadd
    next hfree =>
    cases hadd
    have hsize := size_insert_of_none (b := c) (AList.lookup_eq_none.mpr hfree)
    have hcount := count_replace hroom { r with clients := r.clients.insert dev c }
    dsimp only at hcount
    omega

/-- A deletion adds none. -/
theorem count_deleteClient_le {dev : UInt16} :
    registeredCount (deleteClient rooms room dev)≤ registeredCount rooms := by
  unfold deleteClient
  cases hroom : rooms.lookup room with
  | none => exact Nat.le_refl _
  | some r =>
    dsimp only
    split
    · exact total_erase_le
    · have hcount := count_replace hroom { r with
        clients := r.clients.erase dev
        hostAnn := r.hostAnn.erase dev }
      have hsize := size_erase_le (m := r.clients) (k := dev)
      dsimp only at hcount
      omega

end Counts

section Steps

variable {cfg : Config} {s t : Server} {action : Action}

/-- A step without a join registers nobody. -/
theorem count_step (hI : Registry s) (h : Transition cfg s action t) :
    registeredCount t.rooms≤ registeredCount s.rooms ∨
      ∃ c,action=.addClient c ∧ addClient cfg s.rooms (s.conns c).room (s.conns c).roomAuth
        (s.conns c).dev c=some t.rooms ∧
        registeredCount t.rooms=registeredCount s.rooms+1 := by
  rcases transition_rooms hI h with hsame | ⟨c,haction,hadd⟩ | ⟨-,hedit⟩
  · rw [hsame]
    exact .inl (Nat.le_refl _)
  · exact .inr ⟨c,haction,hadd,count_addClient hadd⟩
  · refine .inl ?_
    rcases hedit with ⟨room,r,dev,packet,hroom,heq⟩ | ⟨room,dev,heq⟩ | ⟨room,heq⟩
    · rw [heq]
      have hcount := count_replace hroom (storeAnnounce r dev packet)
      rw [storeAnnounce_clients] at hcount
      omega
    · rw [heq]
      exact count_deleteClient_le
    · rw [heq]
      exact total_erase_le

/-- A step keeps the limit exactly if no client joins at the limit. -/
theorem withinLimit_step_iff (hI : Registry s) (hP : WithinLimit cfg s)
    (h : step cfg s action=some t) : WithinLimit cfg t ↔ JoinsBelow cfg s action := by
  unfold WithinLimit at hP ⊢
  by_cases hjoin : ∃ c,action=.addClient c
  · obtain ⟨c,rfl⟩ := hjoin
    obtain ⟨htable,-⟩ := added_step h
    rw [addClientTable_eq] at htable
    unfold JoinsBelow
    cases hadd : addClient cfg s.rooms (s.conns c).room (s.conns c).roomAuth
        (s.conns c).dev c with
    | none =>
      rw [hadd] at htable
      rw [htable]
      refine iff_of_true hP fun c' heq htrue => ?_
      cases heq
      rw [addClientTable_eq,hadd] at htrue
      cases htrue
    | some rooms =>
      rw [hadd] at htable
      have hcount := count_addClient hadd
      rw [htable]
      dsimp only
      constructor
      · intro hlimit c' heq _
        omega
      · intro hbelow
        have hlt := hbelow c rfl (by rw [addClientTable_eq,hadd])
        omega
  · have hnot : ∀ c,action≠.addClient c := fun c heq => hjoin ⟨c,heq⟩
    refine iff_of_true ?_ fun c heq _ => absurd heq (hnot c)
    rcases count_step hI (step_transition h) with hle | ⟨c,heq,-⟩
    · omega
    · exact absurd heq (hnot c)

/-- A handler whose client joined stays so until its own removal ends. -/
theorem inside_step (h : Transition cfg s action t) {x : ConnId}
    (hx : phase (s.handlers x)=.inside) :
    phase (t.handlers x)=.inside ∨ t.rooms=disconnectClientLocked s x := by
  have moved : ∀ {c pc},phase pc=phase (s.handlers c) →
      phase (Function.update s.handlers c pc x)=.inside := by
    intro c pc hpc
    rw [update_field phase hpc,hx]
  have out : ∀ {c pc},phase (s.handlers c)=.outside →
      phase (Function.update s.handlers c pc x)=.inside := by
    intro c pc hpc
    have hne : x≠c := by
      rintro rfl
      rw [hx] at hpc
      cases hpc
    rw [Function.update_of_ne hne,hx]
  cases h with
  | drop _ hpc => exact .inl (out hpc)
  | accept hpc | hello hpc | join hpc => exact .inl (out (by rw [hpc]; rfl))
  | start hpc | read hpc | readError hpc | routeNoRoom hpc | routeUnknown hpc | routeTarget hpc
    | routeBroadcast hpc | leave hpc | removeClient hpc | discard hpc | enter hpc | dropData hpc
    | block hpc | send hpc | giveUp hpc | finishBroadcast hpc | finishTarget hpc =>
    exact .inl (moved (by rw [hpc]; rfl))
  | @tailRemove c hmu =>
    by_cases hxc : x=c
    · rw [hxc]
      exact .inr rfl
    · dsimp only
      rw [Function.update_of_ne hxc]
      exact .inl hx
  | _ => exact .inl hx

/-- The handler of a registered client is running. -/
def Inside (s : Server) : Prop :=
  ∀ n d x,registered s.rooms n d=some x → phase (s.handlers x)=.inside

theorem registered_step (hI : Registry s) (h : Transition cfg s action t) {n : RoomName}
    {d : UInt16} {x : ConnId} (hx : registered t.rooms n d=some x) :
    registered s.rooms n d=some x ∨ action=.addClient x ∧ phase (t.handlers x)=.inside := by
  have hstep := h
  rcases transition_rooms hI h with hsame | ⟨c,rfl,hadd⟩ | ⟨-,hedit⟩
  · exact .inl (hsame▸hx)
  · have hnew := addClient_registered hadd (s.conns c).room (s.conns c).dev
    rw [if_pos ⟨rfl,rfl⟩] at hnew
    rw [(addClient_registered hadd n d).2] at hx
    split at hx
    · cases hx
      cases h with
      | skip hidle => cases hidle
      | drop =>
        have hkept := hnew.2.symm.trans hnew.1
        cases hkept
      | join hpc =>
        refine .inr ⟨rfl,?_⟩
        dsimp only
        rw [Function.update_self]
        rfl
    · exact .inl hx
  · refine .inl ?_
    rcases hedit with ⟨room,r,dev,packet,hroom,heq⟩ | ⟨room,dev,heq⟩ | ⟨room,heq⟩
    · rw [heq,registered_storeAnnounce hroom] at hx
      exact hx
    · rw [heq,registered_deleteClient] at hx
      split at hx
      · cases hx
      · exact hx
    · rw [heq,registered_erase] at hx
      split at hx
      · cases hx
      · exact hx

theorem inside_registered_step (hI : Registry s) (hin : Inside s) (h : Transition cfg s action t) :
    Inside t := by
  intro n d x hx
  rcases registered_step hI h hx with hbefore | ⟨-,hafter⟩
  · rcases inside_step h (hin n d x hbefore) with hstays | hrooms
    · exact hstays
    · obtain ⟨hroom,hdev,-⟩ := hI.stored n d x hbefore
      rw [hrooms,disconnectClientLocked,registered_deleteClient,
        if_pos ⟨hroom.symm,hdev.symm⟩] at hx
      cases hx
  · exact hafter

/-- A handler that runs after a step did so before, or its connection is accepted. -/
theorem running_step (h : Transition cfg s action t) {x : ConnId}
    (hx : Running (t.handlers x)) : Running (s.handlers x) ∨
      ∃ nonce,action=.accept x nonce ∧ s.stats.clients<cfg.maxClients := by
  have moved : ∀ {c pc},Running (s.handlers c) → Running (Function.update s.handlers c pc x) →
      Running (s.handlers x) := by
    intro c pc hc hpc
    by_cases hxc : x=c
    · rw [hxc]
      exact hc
    · rw [Function.update_of_ne hxc] at hpc
      exact hpc
  have ended : ∀ {c},Running (Function.update s.handlers c .gone x) → Running (s.handlers x) := by
    intro c hc
    by_cases hxc : x=c
    · rw [hxc,Function.update_self] at hc
      exact absurd rfl hc.2
    · rw [Function.update_of_ne hxc] at hc
      exact hc
  have pcRuns : ∀ {c pc},s.handlers c=pc → pc≠.absent → pc≠.gone → Running (s.handlers c) := by
    intro c pc hpc habsent hgone
    rw [hpc]
    exact ⟨habsent,hgone⟩
  cases h with
  | drop | tailRemove => exact .inl (ended hx)
  | @accept c nonce hpc hlimit =>
    by_cases hxc : x=c
    · rw [hxc]
      exact .inr ⟨nonce,rfl,hlimit⟩
    · dsimp only at hx
      rw [Function.update_of_ne hxc] at hx
      exact .inl hx
  | hello hpc | join hpc | start hpc | read hpc | readError hpc | routeNoRoom hpc
    | routeUnknown hpc | routeTarget hpc | routeBroadcast hpc | leave hpc | removeClient hpc
    | discard hpc | enter hpc | dropData hpc | block hpc | send hpc | giveUp hpc
    | finishBroadcast hpc | finishTarget hpc =>
    exact .inl (moved (pcRuns hpc (by simp) (by simp)) hx)
  | _ => exact .inl hx

/-- At most as many handlers are running as the limit. -/
def FewRunning (cfg : Config) (s : Server) : Prop :=
  ∀ handlers : Finset ConnId,(∀ x∈handlers,Running (s.handlers x)) →
    handlers.card≤ cfg.maxClients

theorem fewRunning_step (hP : FewRunning cfg s) (hG : AcceptsBelow cfg s action)
    (h : Transition cfg s action t) : FewRunning cfg t := by
  intro handlers hall
  by_cases haccept : ∃ x∈handlers,¬Running (s.handlers x)
  · obtain ⟨x,hx,hidle⟩ := haccept
    rcases running_step h (hall x hx) with hbefore | ⟨nonce,haction,hlimit⟩
    · exact absurd hbefore hidle
    · have hothers : ∀ y∈handlers.erase x,Running (s.handlers y) := by
        intro y hy
        obtain ⟨hne,hmem⟩ := Finset.mem_erase.mp hy
        rcases running_step h (hall y hmem) with hbefore | ⟨nonce',haction',-⟩
        · exact hbefore
        · rw [haction] at haction'
          cases haction'
          exact absurd rfl hne
      have hlt := hG x nonce haction hlimit _ hothers
      rw [Finset.card_erase_of_mem hx] at hlt
      omega
  · refine hP handlers fun x hx => ?_
    by_contra hidle
    exact haccept ⟨x,hx,hidle⟩

end Steps

section Members

variable {s : Server}

/-- The registered clients. -/
def registeredConns (rooms : Rooms) : List ConnId :=
  rooms.entries.flatMap fun entry => entry.2.clients.entries.map Sigma.snd

theorem registeredConns_length (rooms : Rooms) :
    (registeredConns rooms).length=registeredCount rooms := by
  unfold registeredConns registeredCount total size
  rw [List.length_flatMap]
  simp only [List.length_map]

/-- They are in their rooms. -/
theorem registered_of_mem {rooms : Rooms} {entry : (_ : RoomName)×Room}
    {client : (_ : UInt16)×ConnId} (hentry : entry∈rooms.entries)
    (hclient : client∈entry.2.clients.entries) :
    registered rooms entry.1 client.1=some client.2 := by
  have hroom : rooms.lookup entry.1=some entry.2 :=
    (List.mem_dlookup_iff rooms.nodupKeys).mpr hentry
  have hlookup : entry.2.clients.lookup client.1=some client.2 :=
    (List.mem_dlookup_iff entry.2.clients.nodupKeys).mpr hclient
  rw [registered_of_room hroom,hlookup]

/-- No client is registered twice. -/
theorem registeredConns_nodup (hI : Registry s) : (registeredConns s.rooms).Nodup := by
  have hplaces : (registeredConns s.rooms).map
      (fun x => ((s.conns x).room,(s.conns x).dev))=
      s.rooms.entries.flatMap fun entry => entry.2.clients.entries.map
        fun client => (entry.1,client.1) := by
    unfold registeredConns
    rw [List.map_flatMap]
    refine List.flatMap_congr fun entry hentry => ?_
    rw [List.map_map]
    refine List.map_congr_left fun client hclient => ?_
    obtain ⟨hroom,hdev,-⟩ := hI.stored _ _ _ (registered_of_mem hentry hclient)
    exact Prod.ext hroom hdev
  refine List.Nodup.of_map (fun x => ((s.conns x).room,(s.conns x).dev)) ?_
  rw [hplaces,List.nodup_flatMap]
  constructor
  · intro entry _
    have hkeys : (entry.2.clients.entries.map Sigma.fst).Nodup := entry.2.clients.nodupKeys
    have hpairs := hkeys.map (f := fun d => (entry.1,d)) fun a b heq => (Prod.mk.inj heq).2
    rw [List.map_map] at hpairs
    exact hpairs
  · have hkeys : (s.rooms.entries.map Sigma.fst).Nodup := s.rooms.nodupKeys
    refine (List.pairwise_map.mp hkeys).imp fun hne pair hfirst hsecond => ?_
    obtain ⟨client,-,rfl⟩ := List.mem_map.mp hfirst
    obtain ⟨client',-,heq⟩ := List.mem_map.mp hsecond
    exact hne (Prod.mk.inj heq).1.symm

/-- Every registered client has a running handler. -/
theorem count_le_of_fewRunning {cfg : Config} (hI : Registry s) (hin : Inside s)
    (h : FewRunning cfg s) : WithinLimit cfg s := by
  have hnodup := registeredConns_nodup hI
  have hcard : (⟨registeredConns s.rooms,hnodup⟩ : Finset ConnId).card=
      (registeredConns s.rooms).length := rfl
  unfold WithinLimit
  rw [← registeredConns_length,← hcard]
  refine h _ fun x hx => ?_
  obtain ⟨entry,hentry,hclient⟩ := List.mem_flatMap.mp hx
  obtain ⟨client,hmem,rfl⟩ := List.mem_map.mp hclient
  have hphase := hin _ _ _ (registered_of_mem hentry hmem)
  constructor
  · intro habsent
    rw [habsent] at hphase
    cases hphase
  · intro hgone
    rw [hgone] at hphase
    cases hphase

end Members

/-- Over every run of the server the number of registered clients is within the limit in
every state exactly if no client joins at the limit. This is so if the accept loop counts
the handlers that are running. -/
theorem client_limit_iff {cfg : Config} {key : List UInt8} {trace : List (Server×Action)}
    {last : Server} (run : ServerRun cfg key trace last) :
    (Always (WithinLimit cfg) trace last ↔ EveryStep (JoinsBelow cfg) trace) ∧
    (EveryStep (AcceptsBelow cfg) trace → Always (WithinLimit cfg) trace last) := by
  have hstart : WithinLimit cfg (newServer key) := Nat.zero_le _
  refine ⟨run.always_iff_everyStep (sound_newServer key) sound_step hstart ?_,fun hall => ?_⟩
  · intro s action t hI hP h
    exact withinLimit_step_iff hI.2 hP h
  · have hinvariant : Always (fun s => Sound s ∧ Inside s) trace last := by
      refine run.always ⟨sound_newServer key,fun n d x hx => ?_⟩ ?_
      · have hnone : registered (newServer key).rooms n d=none :=
          registered_of_noRoom (AList.lookup_empty n)
        rw [hnone] at hx
        cases hx
      · rintro s action t ⟨hI,hin⟩ h
        exact ⟨sound_step s action t hI h,inside_registered_step hI.2 hin (step_transition h)⟩
    have hfew : Always (FewRunning cfg) trace last := by
      refine run.always_of_everyStep (I := fun _ => True) trivial (fun _ _ _ _ _ => trivial)
        ?_ ?_ hall
      · intro handlers hrunning
        have hempty : handlers=∅ := by
          refine Finset.eq_empty_of_forall_notMem fun x hx => ?_
          exact (hrunning x hx).1 rfl
        rw [hempty]
        exact Nat.zero_le _
      · intro s action t _ hP hG h
        exact fewRunning_step hP hG (step_transition h)
    refine ⟨fun entry hentry => ?_,?_⟩
    · obtain ⟨hI,hin⟩ := hinvariant.1 entry hentry
      exact count_le_of_fewRunning hI.2 hin (hfew.1 entry hentry)
    · exact count_le_of_fewRunning hinvariant.2.1.2 hinvariant.2.2 hfew.2

/-- A server for one client. -/
def singleClient : Config where
  maxRooms := 4
  maxClients := 1
  hmacSha256 _ _ := List.replicate 32 0

/-- Two connections are accepted before the first of them has joined. -/
def twoHandshakes : List Action :=
  [.accept 0 [],.accept 1 [],.hello 0 (sampleHello 7 65 1),.hello 1 (sampleHello 8 65 1),
    .addClient 0,.addClient 1]

theorem twoHandshakes_run : ∃ trace last,ServerRun singleClient [] trace last ∧
    registeredCount last.rooms=2 := by
  obtain ⟨last,hexec,hview⟩ := Option.map_eq_some_iff.mp
    (show (exec (step singleClient) (newServer []) twoHandshakes).map
      (fun s => registeredCount s.rooms)=some 2 by rfl)
  obtain ⟨trace,run⟩ := Run.nil.exec hexec
  exact ⟨trace,last,run,hview⟩

/-- More clients than the limit can be registered. -/
theorem client_limit_fails : ¬∀ cfg key trace last,ServerRun cfg key trace last →
    Always (WithinLimit cfg) trace last := by
  intro hall
  obtain ⟨trace,last,run,hcount⟩ := twoHandshakes_run
  have hlimit : registeredCount last.rooms≤1 := (hall singleClient [] trace last run).2
  omega

/-- In that run a client joins at the limit. -/
theorem client_limit_iff_twoHandshakes : ∃ trace last,
    ServerRun singleClient [] trace last ∧ ¬EveryStep (JoinsBelow singleClient) trace := by
  obtain ⟨trace,last,run,hcount⟩ := twoHandshakes_run
  refine ⟨trace,last,run,fun hall => ?_⟩
  have hlimit : registeredCount last.rooms≤1 := ((client_limit_iff run).1.mpr hall).2
  omega

end ChisLink.RelayServerLimit
