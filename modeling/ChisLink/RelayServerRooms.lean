import ChisLink.KeyedSums
import ChisLink.RelayServerIncarnation

/-!
# The structure of the room table

Rooms come and go with their clients: a join may create a room, a departure, a kick or a
deletion may end it. No room is left without clients or has too many, their number stays
within the limit, and a client is stored under its own device id and room with the auth
that the room was created with.
-/

namespace ChisLink.RelayServerRooms

open LabelledRuns KeyedSums RelayServerModel RelayServerStep RelayServerMutex
  RelayServerRegistry RelayServerQueue RelayServerIncarnation

/-- The last part of the function `addClient`, with the room that it has found or entered
in the table before. -/
def addToRoom (rooms : Rooms) (room : RoomName) (r : Room) (dev : UInt16) (c : ConnId) :
    Rooms×Bool :=
  if r.clients.entries.length≥maxRoomClients then (rooms,false)
  else if dev∈r.clients then (rooms,false)
  else (rooms.insert room { r with clients := r.clients.insert dev c },true)

/-- The function `addClient` statement by statement: the table that it leaves, and what it
returns. -/
def addClientTable (cfg : Config) (rooms : Rooms) (room : RoomName) (roomAuth : List UInt8)
    (dev : UInt16) (c : ConnId) : Rooms×Bool :=
  match rooms.lookup room with
  | none =>
    if rooms.entries.length≥cfg.maxRooms then (rooms,false)
    else if roomAuth.length≠sha256Size then (rooms,false)
    else
      let r : Room := { roomAuth := roomAuth, clients := ∅, hostAnn := ∅ }
      addToRoom (rooms.insert room r) room r dev c
  | some r => if r.roomAuth≠roomAuth then (rooms,false) else addToRoom rooms room r dev c

/-- A room that was just created admits its first client. -/
theorem addClientTable_eq (cfg : Config) (rooms : Rooms) (room : RoomName)
    (roomAuth : List UInt8) (dev : UInt16) (c : ConnId) :
    addClientTable cfg rooms room roomAuth dev c=
      match addClient cfg rooms room roomAuth dev c with
      | none => (rooms,false)
      | some rooms' => (rooms',true) := by
  unfold addClientTable addClient addToRoom
  cases rooms.lookup room with
  | none =>
    dsimp only
    by_cases hlimit : rooms.entries.length≥cfg.maxRooms
    · rw [if_pos hlimit,if_pos hlimit]
    rw [if_neg hlimit,if_neg hlimit]
    by_cases hauth : roomAuth.length≠sha256Size
    · rw [if_pos hauth,if_pos hauth]
    rw [if_neg hauth,if_neg hauth]
    have hempty : ¬(∅ : AList fun _ : UInt16 => ConnId).entries.length≥maxRoomClients := by
      decide
    rw [if_neg hempty,if_neg hempty,if_neg (AList.notMem_empty dev),AList.insert_insert]
  | some r =>
    dsimp only
    by_cases hauth : r.roomAuth≠roomAuth
    · rw [if_pos hauth,if_pos hauth]
    rw [if_neg hauth,if_neg hauth]
    by_cases hfull : r.clients.entries.length≥maxRoomClients
    · rw [if_pos hfull,if_pos hfull]
    rw [if_neg hfull,if_neg hfull]
    by_cases htaken : dev∈r.clients
    · rw [if_pos htaken,if_pos htaken]
    · rw [if_neg htaken,if_neg htaken]

/-- The rooms are within their limits, and none is empty. -/
structure Sized (cfg : Config) (rooms : Rooms) : Prop where
  /-- There are at most `max-rooms` of them. -/
  limit : size rooms≤ cfg.maxRooms
  /-- A room has a client and at most `maxRoomClients`. -/
  clients : ∀ n r,rooms.lookup n=some r →
    0<size r.clients ∧ size r.clients≤ maxRoomClients

/-- The room table is in order. -/
structure Structured (cfg : Config) (s : Server) : Prop where
  /-- The limits. -/
  sized : Sized cfg s.rooms
  /-- A client is stored under its device id and its room, and presented the auth of the
  room. -/
  stored : ∀ n r d x,s.rooms.lookup n=some r → r.clients.lookup d=some x →
    (s.conns x).dev=d ∧ (s.conns x).room=n ∧ (s.conns x).roomAuth=r.roomAuth

/-- A room is created with the auth of the client that joins, it keeps this auth, and a
refusal leaves the table unchanged. -/
structure Orderly (cfg : Config) (s : Server) (action : Action) (t : Server) : Prop where
  /-- Only a join creates a room. -/
  created : ∀ n r,s.rooms.lookup n=none → t.rooms.lookup n=some r →
    ∃ c,action=.addClient c ∧ (s.conns c).room=n ∧ (s.conns c).roomAuth=r.roomAuth
  /-- An existing room keeps its auth. -/
  kept : ∀ n r r',s.rooms.lookup n=some r → t.rooms.lookup n=some r' →
    r'.roomAuth=r.roomAuth
  /-- `addClient` leaves its table, which is the old one if it returns false. -/
  added : ∀ c,action=.addClient c →
    t.rooms=(addClientTable cfg s.rooms (s.conns c).room (s.conns c).roomAuth
      (s.conns c).dev c).1 ∧
    ((addClientTable cfg s.rooms (s.conns c).room (s.conns c).roomAuth
      (s.conns c).dev c).2=false → t.rooms=s.rooms)

/-- The same for every outcome of a step. -/
def StepOrderly (cfg : Config) (s : Server) (action : Action) : Prop :=
  ∀ t,step cfg s action=some t → Orderly cfg s action t

section Tables

variable {cfg : Config} {rooms rooms' : Rooms} {room n : RoomName} {r : Room}

/-- A room that replaces one with as many clients. -/
theorem Sized.replace {r' : Room} (h : Sized cfg rooms) (hroom : rooms.lookup room=some r)
    (hsize : 0<size r'.clients ∧ size r'.clients≤ maxRoomClients) :
    Sized cfg (rooms.insert room r') := by
  refine ⟨?_,fun n q hq => ?_⟩
  · rw [size_insert_of_lookup hroom]
    exact h.limit
  · by_cases hn : n=room
    · rw [hn,AList.lookup_insert] at hq
      cases hq
      exact hsize
    · rw [AList.lookup_insert_ne hn] at hq
      exact h.clients n q hq

theorem Sized.erase (h : Sized cfg rooms) (room : RoomName) : Sized cfg (rooms.erase room) := by
  refine ⟨Nat.le_trans size_erase_le h.limit,fun n q hq => ?_⟩
  by_cases hn : n=room
  · rw [hn,AList.lookup_erase] at hq
    cases hq
  · rw [AList.lookup_erase_ne hn] at hq
    exact h.clients n q hq

/-- A join keeps the limits. -/
theorem sized_addClient {roomAuth : List UInt8} {dev : UInt16} {c : ConnId}
    (h : Sized cfg rooms) (hadd : addClient cfg rooms room roomAuth dev c=some rooms') :
    Sized cfg rooms' := by
  unfold addClient at hadd
  cases hroom : rooms.lookup room with
  | none =>
    rw [hroom] at hadd
    dsimp only at hadd
    split at hadd
    · cases hadd
    next hlimit =>
    split at hadd
    · cases hadd
    split at hadd <;> cases hadd
    have hlookup : (∅ : AList fun _ : UInt16 => ConnId).lookup dev=none :=
      AList.lookup_empty dev
    have hone := size_insert_of_none (b := c) hlookup
    refine ⟨?_,fun n q hq => ?_⟩
    · rw [size_insert_of_none hroom]
      exact Nat.not_le.mp hlimit
    · by_cases hn : n=room
      · rw [hn,AList.lookup_insert] at hq
        cases hq
        rw [hone]
        decide
      · rw [AList.lookup_insert_ne hn] at hq
        exact h.clients n q hq
  | some r =>
    rw [hroom] at hadd
    dsimp only at hadd
    split at hadd
    · cases hadd
    split at hadd
    · cases hadd
    next hfull =>
    split at hadd
    · cases hadd
    next hfree =>
    cases hadd
    have hsize := size_insert_of_none (b := c) (AList.lookup_eq_none.mpr hfree)
    refine h.replace hroom ?_
    rw [hsize]
    exact ⟨Nat.succ_pos _,Nat.not_le.mp hfull⟩

/-- A deletion keeps the limits, and leaves no empty room. -/
theorem sized_deleteClient {dev : UInt16} (h : Sized cfg rooms) :
    Sized cfg (deleteClient rooms room dev) := by
  unfold deleteClient
  cases hroom : rooms.lookup room with
  | none => exact h
  | some r =>
    dsimp only
    split
    · exact h.erase room
    next hleft =>
      have hbefore := (h.clients room r hroom).2
      exact h.replace hroom ⟨Nat.pos_of_ne_zero hleft,Nat.le_trans size_erase_le hbefore⟩

/-- A deletion creates no room and keeps the auths. -/
theorem lookup_deleteClient {dev : UInt16} {r' : Room}
    (h : (deleteClient rooms room dev).lookup n=some r') :
    ∃ r,rooms.lookup n=some r ∧ r'.roomAuth=r.roomAuth := by
  unfold deleteClient at h
  cases hroom : rooms.lookup room with
  | none =>
    rw [hroom] at h
    exact ⟨r',h,rfl⟩
  | some r =>
    rw [hroom] at h
    dsimp only at h
    by_cases hn : n=room
    · subst hn
      refine ⟨r,hroom,?_⟩
      split at h
      · rw [AList.lookup_erase] at h
        cases h
      · rw [AList.lookup_insert] at h
        cases h
        rfl
    · split at h
      · rw [AList.lookup_erase_ne hn] at h
        exact ⟨r',h,rfl⟩
      · rw [AList.lookup_insert_ne hn] at h
        exact ⟨r',h,rfl⟩

/-- A join creates at most the room of the client, and keeps the auths. -/
theorem lookup_addClient {roomAuth : List UInt8} {dev : UInt16} {c : ConnId} {r' : Room}
    (hadd : addClient cfg rooms room roomAuth dev c=some rooms')
    (h : rooms'.lookup n=some r') :
    (∃ r,rooms.lookup n=some r ∧ r'.roomAuth=r.roomAuth) ∨
      rooms.lookup n=none ∧ n=room ∧ r'.roomAuth=roomAuth := by
  unfold addClient at hadd
  cases hroom : rooms.lookup room with
  | none =>
    rw [hroom] at hadd
    dsimp only at hadd
    split at hadd
    · cases hadd
    split at hadd
    · cases hadd
    split at hadd <;> cases hadd
    by_cases hn : n=room
    · rw [hn,AList.lookup_insert] at h
      cases h
      exact .inr ⟨hn▸hroom,hn,rfl⟩
    · rw [AList.lookup_insert_ne hn] at h
      exact .inl ⟨r',h,rfl⟩
  | some r =>
    rw [hroom] at hadd
    dsimp only at hadd
    split at hadd
    · cases hadd
    split at hadd
    · cases hadd
    split at hadd <;> cases hadd
    by_cases hn : n=room
    · rw [hn,AList.lookup_insert] at h
      cases h
      exact .inl ⟨r,hn▸hroom,rfl⟩
    · rw [AList.lookup_insert_ne hn] at h
      exact .inl ⟨r',h,rfl⟩

end Tables

section Steps

variable {cfg : Config} {s t : Server} {action : Action}

/-- What a step does to the room table. -/
theorem transition_rooms (hI : Registry s) (h : Transition cfg s action t) :
    t.rooms=s.rooms ∨
    (∃ c,action=.addClient c ∧ addClient cfg s.rooms (s.conns c).room (s.conns c).roomAuth
      (s.conns c).dev c=some t.rooms) ∨
    (∀ c,action≠.addClient c) ∧
    ((∃ room r dev packet,s.rooms.lookup room=some r ∧
        t.rooms=s.rooms.insert room (storeAnnounce r dev packet)) ∨
      (∃ room dev,t.rooms=deleteClient s.rooms room dev) ∨
      ∃ room,t.rooms=s.rooms.erase room) := by
  have hstep := h
  have quiet : editsRooms action=false → t.rooms=s.rooms := fun hquiet =>
    (transition_sameRooms hI hstep hquiet).1
  cases h with
  | skip | ignore | drop | routeNoRoom | routeUnknown | routeTarget => exact .inl rfl
  | @join c rooms hpc hmu hadd => exact .inr (.inl ⟨c,rfl,hadd⟩)
  | @routeBroadcast c _ _ packet r hpc hmu hroom =>
    exact .inr (.inr ⟨by simp,.inl ⟨_,r,_,packet,hroom,rfl⟩⟩)
  | @tailRemove c hmu => exact .inr (.inr ⟨by simp,.inr (.inl ⟨_,_,rfl⟩)⟩)
  | @tailKick room dev hmu => exact .inr (.inr ⟨by simp,.inr (.inl ⟨room,dev,rfl⟩)⟩)
  | @tailDelete room hmu => exact .inr (.inr ⟨by simp,.inr (.inr ⟨room,rfl⟩)⟩)
  | _ => exact .inl (quiet rfl)

/-- The limits hold after a step. -/
theorem sized_step (hI : Registry s) (hS : Sized cfg s.rooms) (h : Transition cfg s action t) :
    Sized cfg t.rooms := by
  rcases transition_rooms hI h with hsame | ⟨c,-,hadd⟩ | ⟨-,hedit⟩
  · rw [hsame]
    exact hS
  · exact sized_addClient hS hadd
  · rcases hedit with ⟨room,r,dev,packet,hroom,heq⟩ | ⟨room,dev,heq⟩ | ⟨room,heq⟩
    · rw [heq]
      refine hS.replace hroom ?_
      rw [storeAnnounce_clients]
      exact hS.clients room r hroom
    · rw [heq]
      exact sized_deleteClient hS
    · rw [heq]
      exact hS.erase room

/-- A step creates rooms only by a join and keeps the auths of the others. -/
theorem lookup_step (hI : Registry s) (h : Transition cfg s action t) {n : RoomName} {r' : Room}
    (hlookup : t.rooms.lookup n=some r') :
    (∃ r,s.rooms.lookup n=some r ∧ r'.roomAuth=r.roomAuth) ∨
      s.rooms.lookup n=none ∧
        ∃ c,action=.addClient c ∧ (s.conns c).room=n ∧ (s.conns c).roomAuth=r'.roomAuth := by
  rcases transition_rooms hI h with hsame | ⟨c,haction,hadd⟩ | ⟨-,hedit⟩
  · rw [hsame] at hlookup
    exact .inl ⟨r',hlookup,rfl⟩
  · rcases lookup_addClient hadd hlookup with hbefore | ⟨hnone,hn,hauth⟩
    · exact .inl hbefore
    · exact .inr ⟨hnone,c,haction,hn.symm,hauth.symm⟩
  · rcases hedit with ⟨room,r,dev,packet,hroom,heq⟩ | ⟨room,dev,heq⟩ | ⟨room,heq⟩
    · rw [heq] at hlookup
      by_cases hn : n=room
      · rw [hn,AList.lookup_insert] at hlookup
        cases hlookup
        exact .inl ⟨r,hn▸hroom,storeAnnounce_roomAuth r dev packet⟩
      · rw [AList.lookup_insert_ne hn] at hlookup
        exact .inl ⟨r',hlookup,rfl⟩
    · rw [heq] at hlookup
      exact .inl (lookup_deleteClient hlookup)
    · rw [heq] at hlookup
      by_cases hn : n=room
      · rw [hn,AList.lookup_erase] at hlookup
        cases hlookup
      · rw [AList.lookup_erase_ne hn] at hlookup
        exact .inl ⟨r',hlookup,rfl⟩

/-- The table after `addClient`. -/
theorem added_step {c : ConnId} (h : step cfg s (.addClient c)=some t) :
    t.rooms=(addClientTable cfg s.rooms (s.conns c).room (s.conns c).roomAuth
      (s.conns c).dev c).1 ∧
    ((addClientTable cfg s.rooms (s.conns c).room (s.conns c).roomAuth
      (s.conns c).dev c).2=false → t.rooms=s.rooms) := by
  simp only [step,joinRoom] at h
  split at h
  · rw [addClientTable_eq]
    cases hadd : addClient cfg s.rooms (s.conns c).room (s.conns c).roomAuth
        (s.conns c).dev c with
    | none =>
      rw [hadd] at h
      cases h
      exact ⟨rfl,fun _ => rfl⟩
    | some rooms =>
      rw [hadd] at h
      cases h
      exact ⟨rfl,fun hfalse => by cases hfalse⟩
  · cases h

theorem orderly_step (hI : Registry s) (h : step cfg s action=some t) :
    Orderly cfg s action t := by
  have htransition := step_transition h
  refine ⟨fun n r hnone hsome => ?_,fun n r r' hbefore hafter => ?_,?_⟩
  · rcases lookup_step hI htransition hsome with ⟨r₀,hbefore,-⟩ | ⟨-,hjoin⟩
    · rw [hnone] at hbefore
      cases hbefore
    · exact hjoin
  · rcases lookup_step hI htransition hafter with ⟨r₀,hsome,hauth⟩ | ⟨hnone,-⟩
    · rw [hbefore] at hsome
      cases hsome
      exact hauth
    · rw [hbefore] at hnone
      cases hnone
  · rintro c rfl
    exact added_step h

/-- What the invariants of the table say. -/
theorem structured_of (hI : Incarnated s) (hS : Sized cfg s.rooms) : Structured cfg s := by
  refine ⟨hS,fun n r d x hroom hx => ?_⟩
  have hregistered : registered s.rooms n d=some x := (registered_of_room hroom).trans hx
  obtain ⟨hplace,hdev,-⟩ := hI.wired.registry.stored n d x hregistered
  have hauth := hI.sameAuth n d x hregistered
  rw [authOf,hroom,Option.map_some] at hauth
  exact ⟨hdev,hplace,(Option.some.inj hauth).symm⟩

/-- In every state of every run of the server the room table is in order, and every step
keeps to the auths of the rooms. -/
theorem rooms_structured {key : List UInt8} {trace : List (Server×Action)} {last : Server}
    (run : ServerRun cfg key trace last) :
    Always (Structured cfg) trace last ∧ EveryStep (StepOrderly cfg) trace := by
  have hinvariant : Always (fun s => Incarnated s ∧ Sized cfg s.rooms) trace last := by
    refine run.always ⟨incarnated_newServer key,?_⟩ ?_
    · refine ⟨Nat.zero_le _,fun n r hr => ?_⟩
      rw [newServer,AList.lookup_empty] at hr
      cases hr
    · rintro s action t ⟨hI,hS⟩ h
      exact ⟨incarnated_step s action t hI h,
        sized_step hI.wired.registry hS (step_transition h)⟩
  refine ⟨⟨fun entry hentry => ?_,?_⟩,fun entry hentry t h => ?_⟩
  · exact structured_of (hinvariant.1 entry hentry).1 (hinvariant.1 entry hentry).2
  · exact structured_of hinvariant.2.1 hinvariant.2.2
  · exact orderly_step (hinvariant.1 entry hentry).1.wired.registry h

/-- A run with a join, a kick that ends the room and another join. -/
theorem rooms_structured_rejoin : ∃ trace last,
    Always (Structured sampleConfig) trace last ∧ EveryStep (StepOrderly sampleConfig) trace ∧
      size last.rooms=1 := by
  obtain ⟨last,hexec,hview⟩ := Option.map_eq_some_iff.mp
    (show (exec (step sampleConfig) (newServer []) (joinActions 0 (sampleHello 7 65 1)++
        [.kickClient [65] 7,.closeDone,.closeOut,.closeTail]++
        joinActions 1 (sampleHello 8 65 2))).map (fun s => size s.rooms)=some 1 by rfl)
  obtain ⟨trace,run⟩ := Run.nil.exec hexec
  exact ⟨trace,last,(rooms_structured run).1,(rooms_structured run).2,hview⟩

end Steps

end ChisLink.RelayServerRooms
