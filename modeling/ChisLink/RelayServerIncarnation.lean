import ChisLink.RelayServerQueue

/-!
# Records stay within the incarnation of a room

A room incarnation is created with the room auth of its first client, and every
later client presents the same one. `routePacket` looks the room of the sender
up by its number only. Stored announcements stay with registered clients, and
records stay within the incarnation, exactly as long as each record that is
stored or forwarded comes from the client registered at that moment.
-/

namespace ChisLink.RelayServerIncarnation

open LabelledRuns RelayServerModel RelayServerStep RelayServerMutex RelayServerRegistry
  RelayServerQueue

/-- The announcement stored under a room and a device id. -/
def announced (rooms : Rooms) (room : RoomName) (dev : UInt16) : Option Sent :=
  (rooms.lookup room).bind fun r => r.hostAnn.lookup dev

/-- The room auth of an existing room. -/
def authOf (rooms : Rooms) (room : RoomName) : Option (List UInt8) :=
  (rooms.lookup room).map Room.roomAuth

/-- The enqueue calls that `routePacket` selects for a record. -/
def selected (r : Room) (dev : UInt16) (c : ConnId) (packet : Sent)
    (order annOrder : List UInt16) : List (ConnId×Entry) :=
  if isBroadcast (parseHeader packet.raw) then broadcastTodo r dev c packet order annOrder
  else match r.clients.lookup (parseHeader packet.raw).target with
    | none => []
    | some target => [(target,⟨packet,false⟩)]

/-- The record is stored as the announcement of its sender. -/
def stores (packet : Sent) : Prop :=
  isBroadcast (parseHeader packet.raw)=true ∧ (parseHeader packet.raw).typ=waTypeAnnounce

/-- The hand-off comes from a client that is registered in the room with the
auth that the receiver presented. -/
def Within (s : Server) (r : Room) (hand : ConnId×Entry) : Prop :=
  r.clients.lookup (s.conns hand.2.sent.src).dev=some hand.2.sent.src ∧
    r.roomAuth=(s.conns hand.1).roomAuth

/-- Every hand-off that a step selects stays within the incarnation. -/
def RoutesWithin (s : Server) (action : Action) : Prop :=
  ∀ c order annOrder packet r,action=.routePacket c order annOrder →
    s.handlers c=.routing packet → s.rooms.lookup (s.conns c).room=some r →
    ∀ hand∈selected r (s.conns c).dev c packet order annOrder,Within s r hand

/-- Every stored announcement is one of the client registered under its key. -/
def AnnouncedRegistered (s : Server) : Prop :=
  ∀ n d ann,announced s.rooms n d=some ann → registered s.rooms n d=some ann.src

/-- A record that is stored or forwarded finds its sender registered, and stored
announcements are only replayed to a client with the auth of the room. -/
def SenderRegistered (s : Server) (action : Action) : Prop :=
  ∀ c order annOrder packet r,action=.routePacket c order annOrder →
    s.handlers c=.routing packet → s.rooms.lookup (s.conns c).room=some r →
    (stores packet ∨ (∃ hand∈selected r (s.conns c).dev c packet order annOrder,
        hand.2.replay=false) → r.clients.lookup (s.conns c).dev=some c) ∧
    ((∃ hand∈selected r (s.conns c).dev c packet order annOrder,hand.2.replay=true) →
      r.roomAuth=(s.conns c).roomAuth)

/-- Every client presented the auth of the room it is registered in. -/
def SameAuth (s : Server) : Prop :=
  ∀ n d x,registered s.rooms n d=some x → authOf s.rooms n=some (s.conns x).roomAuth

/-- Announcements after a room is replaced. -/
theorem announced_insert (rooms : Rooms) (room n : RoomName) (r : Room) (d : UInt16) :
    announced (rooms.insert room r) n d=
      if n=room then r.hostAnn.lookup d else announced rooms n d := by
  unfold announced
  split
  · rename_i h
    subst h
    rw [AList.lookup_insert,Option.bind_some]
  · rename_i h
    rw [AList.lookup_insert_ne h]

/-- Announcements after a room is erased. -/
theorem announced_erase (rooms : Rooms) (room n : RoomName) (d : UInt16) :
    announced (rooms.erase room) n d=
      if n=room then none else announced rooms n d := by
  unfold announced
  split
  · rename_i h
    subst h
    rw [AList.lookup_erase,Option.bind_none]
  · rename_i h
    rw [AList.lookup_erase_ne h]

/-- An announcement that survives a deletion is of another device. -/
theorem announced_deleteClient {rooms : Rooms} {room n : RoomName} {dev d : UInt16}
    {ann : Sent} (h : announced (deleteClient rooms room dev) n d=some ann) :
    announced rooms n d=some ann ∧ ¬(n=room ∧ d=dev) := by
  unfold deleteClient at h
  split at h
  · rename_i hroom
    refine ⟨h,?_⟩
    rintro ⟨rfl,_⟩
    rw [announced,hroom] at h
    cases h
  · rename_i r hroom
    dsimp only at h
    split at h
    · rw [announced_erase] at h
      split at h
      · cases h
      · rename_i hn
        exact ⟨h,fun hand => hn hand.1⟩
    · rw [announced_insert] at h
      split at h
      · rename_i hn
        subst hn
        by_cases hd : d=dev
        · subst hd
          rw [AList.lookup_erase] at h
          cases h
        · rw [AList.lookup_erase_ne hd] at h
          refine ⟨?_,fun hand => hd hand.2⟩
          rw [announced,hroom]
          exact h
      · rename_i hn
        exact ⟨h,fun hand => hn hand.1⟩

/-- Joining stores no announcement. -/
theorem announced_addClient {cfg : Config} {rooms rooms' : Rooms} {room : RoomName}
    {roomAuth : List UInt8} {dev : UInt16} {c : ConnId}
    (h : addClient cfg rooms room roomAuth dev c=some rooms') (n : RoomName) (d : UInt16) :
    announced rooms' n d=announced rooms n d := by
  unfold addClient at h
  split at h
  · rename_i hroom
    split at h
    · cases h
    split at h
    · cases h
    split at h <;> cases h
    rw [announced_insert]
    split
    · rename_i hn
      rw [hn,announced,hroom]
      simp only [AList.lookup_empty,Option.bind_none]
    · rfl
  · rename_i r hroom
    split at h
    · cases h
    split at h
    · cases h
    split at h <;> cases h
    rw [announced_insert]
    split
    · rename_i hn
      rw [hn,announced,hroom,Option.bind_some]
    · rfl

/-- Announcements after a broadcast. -/
theorem announced_storeAnnounce {rooms : Rooms} {room : RoomName} {r : Room}
    (hroom : rooms.lookup room=some r) (dev : UInt16) (packet : Sent) (n : RoomName)
    (d : UInt16) :
    announced (rooms.insert room (storeAnnounce r dev packet)) n d=
      if (parseHeader packet.raw).typ=waTypeAnnounce ∧ n=room ∧ d=dev then some packet
      else announced rooms n d := by
  rw [announced_insert]
  by_cases hn : n=room
  · subst hn
    rw [if_pos rfl,announced,hroom,Option.bind_some,storeAnnounce]
    by_cases htyp : (parseHeader packet.raw).typ=waTypeAnnounce
    · rw [if_pos htyp]
      dsimp only
      by_cases hd : d=dev
      · rw [hd,AList.lookup_insert,if_pos ⟨htyp,rfl,rfl⟩]
      · rw [AList.lookup_insert_ne hd,if_neg (fun hand => hd hand.2.2)]
    · rw [if_neg htyp,if_neg (fun hand => htyp hand.1)]
  · rw [if_neg hn,if_neg (fun hand => hn hand.2.1)]

/-- Replacing a room by one with the same auth keeps all auths. -/
theorem authOf_insert {rooms : Rooms} {room : RoomName} {r r' : Room}
    (hroom : rooms.lookup room=some r) (hauth : r'.roomAuth=r.roomAuth) (n : RoomName) :
    authOf (rooms.insert room r') n=authOf rooms n := by
  unfold authOf
  by_cases hn : n=room
  · subst hn
    rw [AList.lookup_insert,hroom,Option.map_some,Option.map_some,hauth]
  · rw [AList.lookup_insert_ne hn]

/-- Storing an announcement keeps the auth. -/
theorem storeAnnounce_roomAuth (r : Room) (dev : UInt16) (packet : Sent) :
    (storeAnnounce r dev packet).roomAuth=r.roomAuth := by
  unfold storeAnnounce
  split <;> rfl

/-- A room that survives a deletion keeps its auth. -/
theorem authOf_deleteClient {rooms : Rooms} {room n : RoomName} {dev d : UInt16} {x : ConnId}
    (h : registered (deleteClient rooms room dev) n d=some x) :
    authOf (deleteClient rooms room dev) n=authOf rooms n := by
  unfold deleteClient at h ⊢
  split at h
  · rfl
  · rename_i r hroom
    dsimp only at h ⊢
    split at h
    · rename_i hempty
      rw [if_pos hempty]
      rw [registered_erase] at h
      split at h
      · cases h
      · rename_i hn
        rw [authOf,authOf,AList.lookup_erase_ne hn]
    · rename_i hleft
      rw [if_neg hleft]
      exact authOf_insert hroom (by rfl) n

/-- `addClient` keeps the auth of existing rooms and lets only clients with the
auth of the room in. -/
theorem addClient_authOf {cfg : Config} {rooms rooms' : Rooms} {room : RoomName}
    {roomAuth : List UInt8} {dev : UInt16} {c : ConnId}
    (h : addClient cfg rooms room roomAuth dev c=some rooms') :
    authOf rooms' room=some roomAuth ∧
    ∀ n auth,authOf rooms n=some auth → authOf rooms' n=some auth := by
  unfold addClient at h
  split at h
  · rename_i hroom
    split at h
    · cases h
    split at h
    · cases h
    split at h <;> cases h
    refine ⟨?_,fun n auth hn => ?_⟩
    · rw [authOf,AList.lookup_insert,Option.map_some]
    · have hne : n≠room := by
        rintro rfl
        rw [authOf,hroom] at hn
        cases hn
      rwa [authOf,AList.lookup_insert_ne hne]
  · rename_i r hroom
    split at h
    · cases h
    rename_i hauth
    split at h
    · cases h
    split at h <;> cases h
    have hkeep := authOf_insert hroom
      (show ({ r with clients := r.clients.insert dev c } : Room).roomAuth=r.roomAuth from rfl)
    refine ⟨?_,fun n auth hn => (hkeep n).trans hn⟩
    rw [hkeep,authOf,hroom,Option.map_some,not_not.mp hauth]

/-- What the run lemma below carries along. -/
structure Incarnated (s : Server) : Prop where
  /-- Mutexes, room table and queues are in order. -/
  wired : Wired s
  /-- Clients presented the auth of their room. -/
  sameAuth : SameAuth s

/-- The actions that edit the room table. -/
def editsRooms : Action → Bool
  | .addClient _ => true
  | .routePacket _ _ _ => true
  | .closeTail => true
  | _ => false

/-- All other actions leave the table and the auth of accepted clients alone. -/
theorem transition_sameRooms {cfg : Config} {s t : Server} {action : Action}
    (hI : Registry s) (h : Transition cfg s action t) (hquiet : editsRooms action=false) :
    t.rooms=s.rooms ∧
    ∀ x,(s.conns x).accepted=true → (t.conns x).roomAuth=(s.conns x).roomAuth := by
  cases h with
  | join | routeNoRoom | routeBroadcast | routeUnknown | routeTarget | tailRemove | tailKick
    | tailDelete => cases hquiet
  | drop | enter | block | send | giveUp | closeDone | closeOut | writerTake | writerError =>
    exact ⟨rfl,fun x _ => update_field Client.roomAuth (by rfl) x⟩
  | @hello c _ _ hpc =>
    refine ⟨rfl,fun x hx => ?_⟩
    have hxc : x≠c := by
      rintro rfl
      rw [(hI.outside x (by rw [hpc]; rfl)).1] at hx
      cases hx
    dsimp only
    rw [Function.update_of_ne hxc]
  | _ => exact ⟨rfl,fun _ _ => rfl⟩

/-- One step preserves the agreement of the auths. -/
theorem sameAuth_step {cfg : Config} {s t : Server} {action : Action} (hI : Registry s)
    (hA : SameAuth s) (h : Transition cfg s action t) : SameAuth t := by
  have hstep := h
  have quiet : editsRooms action=false → SameAuth t := by
    intro hquiet n d x hx
    obtain ⟨hrooms,hauth⟩ := transition_sameRooms hI hstep hquiet
    rw [hrooms] at hx ⊢
    rw [hauth x (hI.stored n d x hx).2.2]
    exact hA n d x hx
  cases h with
  | skip | ignore => exact hA
  | @drop _ c =>
    intro n d x hx
    refine (hA n d x hx).trans (congrArg some ?_)
    exact (update_field Client.roomAuth (by rfl) x).symm
  | routeNoRoom | routeUnknown | routeTarget => exact hA
  | @join c rooms hpc hmu hadd =>
    intro n d x hx
    dsimp only at hx ⊢
    have hkeep : (Function.update s.conns c { s.conns c with accepted := true } x).roomAuth=
        (s.conns x).roomAuth := update_field Client.roomAuth (by rfl) x
    obtain ⟨hroom,hauth⟩ := addClient_authOf hadd
    rw [(addClient_registered hadd n d).2] at hx
    rw [hkeep]
    split at hx
    · rename_i hnd
      cases hx
      rw [hnd.1]
      exact hroom
    · exact hauth n _ (hA n d x hx)
  | @routeBroadcast c _ _ packet r hpc hmu hroom =>
    intro n d x hx
    dsimp only at hx ⊢
    rw [registered_storeAnnounce hroom] at hx
    rw [authOf_insert hroom (storeAnnounce_roomAuth r _ packet)]
    exact hA n d x hx
  | @tailRemove c hmu =>
    intro n d x hx
    have hkeep : (Function.update s.conns c { s.conns c with connClosed := true } x).roomAuth=
        (s.conns x).roomAuth := update_field Client.roomAuth (by rfl) x
    dsimp only [disconnectClientLocked] at hx ⊢
    rw [hkeep,authOf_deleteClient hx]
    rw [registered_deleteClient] at hx
    split at hx
    · cases hx
    · exact hA n d x hx
  | @tailKick room dev hmu =>
    intro n d x hx
    dsimp only at hx ⊢
    rw [authOf_deleteClient hx]
    rw [registered_deleteClient] at hx
    split at hx
    · cases hx
    · exact hA n d x hx
  | @tailDelete room hmu =>
    intro n d x hx
    dsimp only at hx ⊢
    rw [registered_erase] at hx
    split at hx
    · cases hx
    · rename_i hn
      rw [authOf,AList.lookup_erase_ne hn]
      exact hA n d x hx
  | _ => exact quiet rfl

/-- A new server is in order. -/
theorem incarnated_newServer (key : List UInt8) : Incarnated (newServer key) :=
  ⟨wired_newServer key,fun n d x h => by simp [newServer,registered] at h⟩

/-- One step keeps the server in order. -/
theorem incarnated_step {cfg : Config} (s : Server) (action : Action) (t : Server)
    (hI : Incarnated s) (h : step cfg s action=some t) : Incarnated t :=
  ⟨wired_step s action t hI.wired h,
    sameAuth_step hI.wired.registry hI.sameAuth (step_transition h)⟩

/-- Outside `routePacket` every step keeps announcements with registered clients. -/
theorem announcedRegistered_step {cfg : Config} {s t : Server} {action : Action}
    (hI : Registry s) (hP : AnnouncedRegistered s) (h : Transition cfg s action t)
    (hroute : ∀ c order annOrder,action≠.routePacket c order annOrder) :
    AnnouncedRegistered t := by
  have hstep := h
  have quiet : editsRooms action=false → AnnouncedRegistered t := by
    intro hquiet n d ann hann
    have hrooms := (transition_sameRooms hI hstep hquiet).1
    rw [hrooms] at hann ⊢
    exact hP n d ann hann
  cases h with
  | skip | ignore => exact hP
  | drop => exact hP
  | routeNoRoom | routeBroadcast | routeUnknown | routeTarget => exact absurd rfl (hroute _ _ _)
  | @join c rooms hpc hmu hadd =>
    intro n d ann hann
    dsimp only at hann ⊢
    rw [announced_addClient hadd] at hann
    obtain ⟨hfree,hput⟩ := addClient_registered hadd n d
    have hx := hP n d ann hann
    rw [hput,if_neg,hx]
    rintro ⟨rfl,rfl⟩
    rw [hfree] at hx
    cases hx
  | @tailRemove c hmu =>
    intro n d ann hann
    dsimp only [disconnectClientLocked] at hann ⊢
    obtain ⟨hbefore,hne⟩ := announced_deleteClient hann
    rw [registered_deleteClient,if_neg hne]
    exact hP n d ann hbefore
  | @tailKick room dev hmu =>
    intro n d ann hann
    dsimp only at hann ⊢
    obtain ⟨hbefore,hne⟩ := announced_deleteClient hann
    rw [registered_deleteClient,if_neg hne]
    exact hP n d ann hbefore
  | @tailDelete room hmu =>
    intro n d ann hann
    dsimp only at hann ⊢
    rw [announced_erase] at hann
    rw [registered_erase]
    split at hann
    · cases hann
    · rename_i hn
      rw [if_neg hn]
      exact hP n d ann hann
  | _ => exact quiet rfl

/-- A live hand-off stays within the room exactly when its sender is registered. -/
theorem within_live_iff {s : Server} {r : Room} {c x : ConnId} {d : UInt16} {packet : Sent}
    (hI : Incarnated s) (hpc : s.handlers c=.routing packet)
    (hroom : s.rooms.lookup (s.conns c).room=some r) (hx : r.clients.lookup d=some x) :
    Within s r (x,⟨packet,false⟩) ↔ r.clients.lookup (s.conns c).dev=some c := by
  have hsrc := hI.wired.queues.origin c packet hpc
  have hauth := hI.sameAuth (s.conns c).room d x (by rw [registered_of_room hroom,hx])
  rw [authOf,hroom,Option.map_some,Option.some.injEq] at hauth
  unfold Within
  dsimp only
  rw [hsrc]
  exact ⟨fun h => h.1,fun h => ⟨h,hauth⟩⟩

/-- A replay stays within the room exactly when the receiver has its auth. -/
theorem within_replay_iff {s : Server} {r : Room} {c : ConnId} {d : UInt16} {ann : Sent}
    (hI : Incarnated s) (hP : AnnouncedRegistered s)
    (hroom : s.rooms.lookup (s.conns c).room=some r) (hann : r.hostAnn.lookup d=some ann) :
    Within s r (c,⟨ann,true⟩) ↔ r.roomAuth=(s.conns c).roomAuth := by
  have hreg := hP (s.conns c).room d ann (by rw [announced,hroom,Option.bind_some,hann])
  obtain ⟨_,hdev,_⟩ := hI.wired.registry.stored _ _ _ hreg
  rw [registered_of_room hroom] at hreg
  unfold Within
  dsimp only
  rw [hdev]
  exact ⟨fun h => h.2,fun h => ⟨hreg,h⟩⟩

/-- What `routePacket` selects is live for a registered client, or a stored
announcement for the sender. -/
theorem selected_cases {r : Room} {dev : UInt16} {c : ConnId} {packet : Sent}
    {order annOrder : List UInt16} {hand : ConnId×Entry}
    (h : hand∈selected r dev c packet order annOrder) :
    (∃ d x,r.clients.lookup d=some x ∧ hand=(x,⟨packet,false⟩)) ∨
    ∃ d ann,r.hostAnn.lookup d=some ann ∧ hand=(c,⟨ann,true⟩) := by
  unfold selected at h
  split at h
  · unfold broadcastTodo at h
    rcases List.mem_append.mp h with h | h
    · split at h
      · obtain ⟨ann,hann,rfl⟩ := List.mem_map.mp h
        obtain ⟨d,_,hd⟩ := List.mem_filterMap.mp hann
        split at hd
        · cases hd
        · exact Or.inr ⟨d,ann,hd,rfl⟩
      · cases h
    · obtain ⟨x,hx,rfl⟩ := List.mem_map.mp h
      obtain ⟨d,_,hd⟩ := List.mem_filterMap.mp hx
      split at hd
      · cases hd
      · exact Or.inl ⟨d,x,hd,rfl⟩
  · split at h
    · cases h
    · rename_i target htarget
      exact Or.inl ⟨_,target,htarget,List.mem_singleton.mp h⟩

/-- All selected hand-offs stay within the room exactly when the sender is
registered for the live ones and has the auth of the room for the replays. -/
theorem selected_within_iff {s : Server} {r : Room} {c : ConnId} {packet : Sent}
    {order annOrder : List UInt16} (hI : Incarnated s) (hP : AnnouncedRegistered s)
    (hpc : s.handlers c=.routing packet) (hroom : s.rooms.lookup (s.conns c).room=some r) :
    (∀ hand∈selected r (s.conns c).dev c packet order annOrder,Within s r hand) ↔
    ((∃ hand∈selected r (s.conns c).dev c packet order annOrder,hand.2.replay=false) →
      r.clients.lookup (s.conns c).dev=some c) ∧
    ((∃ hand∈selected r (s.conns c).dev c packet order annOrder,hand.2.replay=true) →
      r.roomAuth=(s.conns c).roomAuth) := by
  constructor
  · intro hall
    refine ⟨?_,?_⟩
    · rintro ⟨hand,hmem,hlive⟩
      have hwithin := hall hand hmem
      rcases selected_cases hmem with ⟨d,x,hx,rfl⟩ | ⟨d,ann,hann,rfl⟩
      · exact (within_live_iff hI hpc hroom hx).mp hwithin
      · cases hlive
    · rintro ⟨hand,hmem,hreplay⟩
      have hwithin := hall hand hmem
      rcases selected_cases hmem with ⟨d,x,hx,rfl⟩ | ⟨d,ann,hann,rfl⟩
      · cases hreplay
      · exact (within_replay_iff hI hP hroom hann).mp hwithin
  · rintro ⟨hlive,hreplay⟩ hand hmem
    rcases selected_cases hmem with ⟨d,x,hx,rfl⟩ | ⟨d,ann,hann,rfl⟩
    · exact (within_live_iff hI hpc hroom hx).mpr (hlive ⟨_,hmem,rfl⟩)
    · exact (within_replay_iff hI hP hroom hann).mpr (hreplay ⟨_,hmem,rfl⟩)

/-- A broadcast keeps announcements with registered clients exactly when the
sender of a stored one is registered. -/
theorem announcedRegistered_store_iff {s : Server} {c : ConnId} {packet : Sent} {r : Room}
    {t : Server} (hI : Incarnated s) (hP : AnnouncedRegistered s)
    (hpc : s.handlers c=.routing packet) (hroom : s.rooms.lookup (s.conns c).room=some r)
    (hbroadcast : isBroadcast (parseHeader packet.raw)=true)
    (hrooms : t.rooms=s.rooms.insert (s.conns c).room (storeAnnounce r (s.conns c).dev packet)) :
    AnnouncedRegistered t ↔ (stores packet → r.clients.lookup (s.conns c).dev=some c) := by
  have hsrc := hI.wired.queues.origin c packet hpc
  simp only [AnnouncedRegistered,hrooms,announced_storeAnnounce hroom,
    registered_storeAnnounce hroom]
  constructor
  · rintro hafter ⟨_,htyp⟩
    have hreg := hafter (s.conns c).room (s.conns c).dev packet (if_pos ⟨htyp,rfl,rfl⟩)
    rwa [registered_of_room hroom,hsrc] at hreg
  · intro hown n d ann hann
    split at hann
    · rename_i hkey
      cases hann
      rw [hkey.2.1,hkey.2.2,registered_of_room hroom,hsrc]
      exact hown ⟨hbroadcast,hkey.1⟩
    · exact hP n d ann hann

/-- What a routing step has to keep within the room. -/
theorem routesWithin_iff {s : Server} {c : ConnId} {packet : Sent} {r : Room}
    {order annOrder : List UInt16} (hpc : s.handlers c=.routing packet)
    (hroom : s.rooms.lookup (s.conns c).room=some r) :
    RoutesWithin s (.routePacket c order annOrder) ↔
      ∀ hand∈selected r (s.conns c).dev c packet order annOrder,Within s r hand := by
  constructor
  · intro h
    exact h c order annOrder packet r rfl hpc hroom
  · intro h c' order' annOrder' packet' r' haction hpc' hroom'
    cases haction
    rw [hpc] at hpc'
    rw [hroom] at hroom'
    cases hpc'
    cases hroom'
    exact h

/-- What the sender condition asks of a routing step. -/
theorem senderRegistered_iff {s : Server} {c : ConnId} {packet : Sent} {r : Room}
    {order annOrder : List UInt16} (hpc : s.handlers c=.routing packet)
    (hroom : s.rooms.lookup (s.conns c).room=some r) :
    SenderRegistered s (.routePacket c order annOrder) ↔
      (stores packet ∨ (∃ hand∈selected r (s.conns c).dev c packet order annOrder,
          hand.2.replay=false) → r.clients.lookup (s.conns c).dev=some c) ∧
      ((∃ hand∈selected r (s.conns c).dev c packet order annOrder,hand.2.replay=true) →
        r.roomAuth=(s.conns c).roomAuth) := by
  constructor
  · intro h
    exact h c order annOrder packet r rfl hpc hroom
  · intro h c' order' annOrder' packet' r' haction hpc' hroom'
    cases haction
    rw [hpc] at hpc'
    rw [hroom] at hroom'
    cases hpc'
    cases hroom'
    exact h

/-- One step keeps announcements with registered clients and routes within the
room exactly when the sender condition holds. -/
theorem isolated_step {cfg : Config} (s : Server) (action : Action) (t : Server)
    (hI : Incarnated s) (hP : AnnouncedRegistered s) (h : step cfg s action=some t) :
    AnnouncedRegistered t ∧ RoutesWithin s action ↔ SenderRegistered s action := by
  have htransition := step_transition h
  by_cases hroute : ∃ c order annOrder,action=.routePacket c order annOrder
  · obtain ⟨c,order,annOrder,rfl⟩ := hroute
    -- a record that is not broadcast is not stored
    have targeted : ∀ {packet : Sent} {r : Room},s.handlers c=.routing packet →
        s.rooms.lookup (s.conns c).room=some r →
        isBroadcast (parseHeader packet.raw)=false →
        (AnnouncedRegistered s ∧ RoutesWithin s (.routePacket c order annOrder) ↔
          SenderRegistered s (.routePacket c order annOrder)) := by
      intro packet r hpc hroom hsingle
      have hstores : ¬stores packet := by
        rintro ⟨hbroadcast,_⟩
        rw [hsingle] at hbroadcast
        cases hbroadcast
      rw [routesWithin_iff hpc hroom,senderRegistered_iff hpc hroom,
        selected_within_iff hI hP hpc hroom,or_iff_right hstores]
      exact and_iff_right hP
    cases htransition with
    | skip hidle => cases hidle
    | drop hdrop => cases hdrop
    | @routeNoRoom _ _ _ packet hpc hmu hroom =>
      refine iff_of_true ⟨hP,?_⟩ ?_ <;>
      · intro c' order' annOrder' packet' r' haction _ hroom'
        cases haction
        rw [hroom] at hroom'
        cases hroom'
    | routeUnknown hpc _ hroom hsingle => exact targeted hpc hroom hsingle
    | routeTarget hpc _ hroom hsingle => exact targeted hpc hroom hsingle
    | routeBroadcast hpc _ hroom _ _ hbroadcast =>
      rw [routesWithin_iff hpc hroom,senderRegistered_iff hpc hroom,
        selected_within_iff hI hP hpc hroom,
        announcedRegistered_store_iff hI hP hpc hroom hbroadcast rfl,or_imp,and_assoc]
  · have hother : ∀ c order annOrder,action≠.routePacket c order annOrder :=
      fun c order annOrder heq => hroute ⟨c,order,annOrder,heq⟩
    refine iff_of_true ⟨announcedRegistered_step hI.wired.registry hP htransition hother,?_⟩ ?_
    · intro c order annOrder packet r haction
      exact absurd haction (hother c order annOrder)
    · intro c order annOrder packet r haction
      exact absurd haction (hother c order annOrder)

/-- In a run of the server all stored announcements stay with registered clients
and all records stay within their room incarnation exactly when every record
that is stored or forwarded finds its sender registered. -/
theorem isolated_always_iff {cfg : Config} {key : List UInt8} {trace : List (Server×Action)}
    {last : Server} (run : ServerRun cfg key trace last) :
    Always AnnouncedRegistered trace last ∧ EveryStep RoutesWithin trace ↔
      EveryStep SenderRegistered trace := by
  refine run.always_and_everyStep_iff (incarnated_newServer key) incarnated_step ?_ isolated_step
  intro n d ann hann
  simp [newServer,announced] at hann

/-- A client reads an ANNOUNCE and is kicked; then the record is routed. -/
def staleAnnounce : List Action :=
  joinActions 0 (sampleHello 1 65 1)++joinActions 1 (sampleHello 2 65 1)++
  [.read 0 (samplePacket waTypeAnnounce 0),.kickClient [65] 1,.closeDone,.closeOut,.closeTail,
    .routePacket 0 [2] []]

/-- Every key of `hostAnn` in a room is a key of its `clients`. -/
def AnnouncedKeys (s : Server) : Prop :=
  ∀ n d,(announced s.rooms n d).isSome=true → (registered s.rooms n d).isSome=true

/-- Announcements of registered clients have keys of clients. -/
theorem AnnouncedRegistered.keys {s : Server} (hP : AnnouncedRegistered s) :
    AnnouncedKeys s := by
  intro n d h
  obtain ⟨ann,hann⟩ := Option.isSome_iff_exists.mp h
  rw [hP n d ann hann]
  rfl

/-- In that run an announcement is stored under a key that is no client. -/
theorem staleAnnounce_run : ∃ trace last,ServerRun sampleConfig [] trace last ∧
    ¬AnnouncedKeys last := by
  obtain ⟨last,hexec,hview⟩ := Option.map_eq_some_iff.mp
    (show (exec (step sampleConfig) (newServer []) staleAnnounce).map (fun s =>
        (announced s.rooms [65] 1,registered s.rooms [65] 1))=
      some (some ⟨samplePacket waTypeAnnounce 0,0,0⟩,none) by rfl)
  obtain ⟨trace,run⟩ := Run.nil.exec hexec
  refine ⟨trace,last,run,fun hP => ?_⟩
  simp only [Prod.mk.injEq] at hview
  have h := hP [65] 1 (by rw [hview.1]; rfl)
  rw [hview.2] at h
  cases h

/-- A removed client can still leave an announcement in its room. -/
theorem isolated_fails : ¬∀ cfg key trace last,ServerRun cfg key trace last →
    AnnouncedKeys last := by
  intro hall
  obtain ⟨trace,last,run,hbad⟩ := staleAnnounce_run
  exact hbad (hall sampleConfig [] trace last run)

/-- That run routes a record whose sender is not registered. -/
theorem isolated_always_iff_staleAnnounce : ∃ trace last,
    ServerRun sampleConfig [] trace last ∧ ¬EveryStep SenderRegistered trace := by
  obtain ⟨trace,last,run,hbad⟩ := staleAnnounce_run
  exact ⟨trace,last,run,fun hall => hbad ((isolated_always_iff run).mpr hall).1.2.keys⟩

end ChisLink.RelayServerIncarnation
