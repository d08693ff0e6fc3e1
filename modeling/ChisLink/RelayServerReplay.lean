import ChisLink.RelayServerOrder

/-!
# Stored announcements are replayed fresh

A broadcast ANNOUNCE is stored under the device of its sender and handed to the others in
one critical section, and a DISCOVER is answered with the stored ones in another. So what
is routed to a receiver from one sender never goes back in its order, and what enters the
queue of the receiver is a part of what was routed to it.
-/

namespace ChisLink.RelayServerReplay

open LabelledRuns RelayServerModel RelayServerStep RelayServerMutex RelayServerRegistry
  RelayServerQueue RelayServerIncarnation RelayServerDelivery RelayServerOrder

/-- The record is a broadcast ANNOUNCE. -/
def announces (p : Sent) : Bool :=
  isBroadcast (parseHeader p.raw) && (parseHeader p.raw).typ=waTypeAnnounce

/-- The record is a broadcast DISCOVER. -/
def discovers (p : Sent) : Bool :=
  isBroadcast (parseHeader p.raw) && (parseHeader p.raw).typ=waTypeDiscover

/-- The broadcast ANNOUNCE of a sender in a hand-off to a receiver, live or replayed. -/
def announcement (x c : ConnId) (hand : ConnId×Entry) : Option Sent :=
  if hand.1=c ∧ announces hand.2.sent=true ∧ hand.2.sent.src=x then some hand.2.sent else none

/-- The announcements of a sender that entered the queue of a receiver, in order. -/
def announcementsEntered (log : List Event) (x c : ConnId) : List Sent :=
  (enteredLog log c).filterMap fun entry => announcement x c (c,entry)

/-- Those that were routed to it, in order. -/
def announcementsRouted (log : List Event) (x c : ConnId) : List Sent :=
  log.filterMap fun event => match event with
    | .routed dst entry => announcement x c (dst,entry)
    | _ => none

/-- The enqueue calls that a broadcast still has to make. -/
def broadcasting : HandlerPc → List (ConnId×Entry)
  | .enqueuing todo true _ => todo
  | _ => []

/-- The announcement that a step stores under a room and a device. -/
def storedBy (s : Server) (action : Action) (n : RoomName) (d : UInt16) : List Sent :=
  match action with
  | .routePacket c _ _ =>
    match s.handlers c with
    | .routing packet =>
      if announces packet=true ∧ (s.rooms.lookup (s.conns c).room).isSome ∧
          (s.conns c).room=n ∧ (s.conns c).dev=d then [packet] else []
    | _ => []
  | _ => []

/-- The announcements that a run has stored there, in order. -/
def storedFor (trace : List (Server×Action)) (n : RoomName) (d : UInt16) : List Sent :=
  trace.flatMap fun entry => storedBy entry.1 entry.2 n d

/-- The stored announcements among the enqueue calls of a handler. -/
def answers (pc : HandlerPc) : List (ConnId×Entry) :=
  (todoOf pc).filter fun hand => hand.2.replay

/-- What a DISCOVER is answered with: for each other device at most one announcement, the
last one stored for it, and none of the receiver's own. -/
structure Answered (trace : List (Server×Action)) (s : Server) (c : ConnId)
    (hands : List (ConnId×Entry)) : Prop where
  /-- The answers go to the sender of the DISCOVER. -/
  receiver : ∀ hand∈hands,hand.1=c
  /-- They are of other devices. -/
  others : ∀ hand∈hands,hand.2.sent.src≠c ∧
    (s.conns hand.2.sent.src).dev≠(s.conns c).dev
  /-- Each is the last one that was stored for its device. -/
  last : ∀ hand∈hands,(storedFor trace (s.conns c).room
    (s.conns hand.2.sent.src).dev).getLast?=some hand.2.sent
  /-- No device has two. -/
  single : (hands.map fun hand => (s.conns hand.2.sent.src).dev).Nodup

/-- A record was read before the one in hand, if there is one. -/
def Past (s : Server) (p : Sent) : Prop :=
  p.seq<s.received p.src ∧ ∀ q,s.handlers p.src=.routing q → p.seq<q.seq

section Logs

variable {log more : List Event} {x c : ConnId}

theorem announcementsEntered_append :
    announcementsEntered (log++more) x c=
      announcementsEntered log x c++announcementsEntered more x c := by
  unfold announcementsEntered
  rw [enteredLog_append,List.filterMap_append]

theorem announcementsRouted_append :
    announcementsRouted (log++more) x c=
      announcementsRouted log x c++announcementsRouted more x c :=
  List.filterMap_append

/-- A selection routes its announcements. -/
theorem announcementsRouted_routedEvents (todo : List (ConnId×Entry)) :
    announcementsRouted (routedEvents todo) x c=todo.filterMap (announcement x c) := by
  unfold announcementsRouted routedEvents
  rw [List.filterMap_map]
  rfl

theorem announcementsEntered_routedEvents (todo : List (ConnId×Entry)) :
    announcementsEntered (routedEvents todo) x c=[] := by
  have hnone : enteredLog (routedEvents todo) c=[] := by
    unfold enteredLog routedEvents
    rw [List.filterMap_map]
    exact List.filterMap_eq_nil_iff.mpr fun hand _ => rfl
  unfold announcementsEntered
  rw [hnone,List.filterMap_nil]

/-- An entry adds its announcement. -/
theorem announcementsEntered_entered (b : ConnId) (entry : Entry) :
    announcementsEntered [.entered b entry] x c=(announcement x c (b,entry)).toList := by
  unfold announcementsEntered enteredLog
  by_cases hbc : b=c
  · subst hbc
    rw [List.filterMap_cons,List.filterMap_nil]
    dsimp only
    rw [if_pos rfl]
    dsimp only
    rw [List.filterMap_cons,List.filterMap_nil]
    cases announcement x b (b,entry) <;> rfl
  · rw [List.filterMap_cons,List.filterMap_nil]
    dsimp only
    rw [if_neg hbc]
    have hnone : announcement x c (b,entry)=none := if_neg fun h => hbc h.1
    rw [hnone]
    rfl

theorem announcement_eq_some {hand : ConnId×Entry} {p : Sent}
    (h : announcement x c hand=some p) :
    hand.1=c ∧ announces p=true ∧ p.src=x ∧ hand.2.sent=p := by
  unfold announcement at h
  split at h
  · rename_i hand'
    cases h
    exact ⟨hand'.1,hand'.2.1,hand'.2.2,rfl⟩
  · cases h

end Logs

section Entering

variable {cfg : Config} {s t : Server} {action : Action}

/-- What entered a queue and what the broadcast in progress still enqueues is a part of
what was routed, and only a broadcast hands announcements over. -/
structure Entering (s : Server) : Prop where
  /-- In order. -/
  part : ∀ h x c,(announcementsEntered s.log x c++
    (broadcasting (s.handlers h)).filterMap (announcement x c)).Sublist
      (announcementsRouted s.log x c)
  /-- A targeted record is none. -/
  targeted : ∀ c todo blocked,s.handlers c=.enqueuing todo false blocked →
    ∀ hand∈todo,announces hand.2.sent=false

/-- A handler outside the broadcast section has nothing to broadcast. -/
theorem broadcasting_other (hO : Owners s) {c h : ConnId} {todo : List (ConnId×Entry)}
    {blocked : Bool} (hc : s.handlers c=.enqueuing todo true blocked) (hne : h≠c) :
    broadcasting (s.handlers h)=[] := by
  have howned : owned s.mu c=some .broadcast := by
    rw [← hO c,hc]
    rfl
  have hother := hO h
  rw [owned_unique howned hne] at hother
  cases hpc : s.handlers h with
  | enqueuing todo' underMu blocked' =>
    rw [hpc] at hother
    cases underMu
    · rfl
    · cases hother
  | _ => rfl

theorem targeted_step (hE : Entering s) (h : Transition cfg s action t) :
    ∀ c todo blocked,t.handlers c=.enqueuing todo false blocked →
      ∀ hand∈todo,announces hand.2.sent=false := by
  have handler : ∀ {e pc},(∀ todo blocked,pc=.enqueuing todo false blocked →
        ∀ hand∈todo,announces hand.2.sent=false) →
      ∀ c todo blocked,Function.update s.handlers e pc c=.enqueuing todo false blocked →
        ∀ hand∈todo,announces hand.2.sent=false := by
    intro e pc hpc c todo blocked hset
    by_cases hce : c=e
    · rw [hce,Function.update_self] at hset
      exact hpc todo blocked hset
    · rw [Function.update_of_ne hce] at hset
      exact hE.targeted c todo blocked hset
  have advance : ∀ {e b entry rest underMu blocked},
      s.handlers e=.enqueuing ((b,entry)::rest) underMu blocked →
      ∀ todo blocked',HandlerPc.enqueuing rest underMu false=.enqueuing todo false blocked' →
        ∀ hand∈todo,announces hand.2.sent=false := by
    intro e b entry rest underMu blocked hpc todo blocked' heq hand hmem
    cases heq
    exact hE.targeted e _ _ hpc hand (List.mem_cons_of_mem _ hmem)
  cases h with
  | skip | ignore | rotateKey | kickClient | deleteRoom | closeDone | closeOut | closeSkip
    | tailKick | tailDelete | writerTake | writerSent | writerError | writerEnd =>
    exact hE.targeted
  | @routeTarget c target _ _ packet r hpc hmu hroom hbroadcast =>
    refine handler fun todo blocked heq hand hmem => ?_
    cases heq
    rw [List.mem_singleton.mp hmem]
    unfold announces
    dsimp only
    rw [hbroadcast]
    rfl
  | discard hpc | enter hpc | dropData hpc | send hpc | giveUp hpc => exact handler (advance hpc)
  | block hpc =>
    refine handler fun todo blocked heq => ?_
    cases heq
    exact hE.targeted _ _ _ hpc
  | _ =>
    exact handler (by simp)

/-- What has entered stays a part of what was routed. -/
theorem part_step (hO : Owners s) (hE : Entering s) (h : Transition cfg s action t)
    (e x c : ConnId) : (announcementsEntered t.log x c++
      (broadcasting (t.handlers e)).filterMap (announcement x c)).Sublist
        (announcementsRouted t.log x c) := by
  have entered : (announcementsEntered s.log x c).Sublist (announcementsRouted s.log x c) :=
    (List.sublist_append_left _ _).trans (hE.part e x c)
  -- a handler whose program counter has nothing more to broadcast
  have quiet : ∀ {f pc},(broadcasting pc=broadcasting (s.handlers f) ∨ broadcasting pc=[]) →
      (announcementsEntered s.log x c++
        (broadcasting (Function.update s.handlers f pc e)).filterMap (announcement x c)).Sublist
          (announcementsRouted s.log x c) := by
    intro f pc hpc
    by_cases hef : e=f
    · rw [hef,Function.update_self]
      rcases hpc with hsame | hnone
      · rw [hsame]
        exact hE.part f x c
      · rw [hnone,List.filterMap_nil,List.append_nil]
        exact entered
    · rw [Function.update_of_ne hef]
      exact hE.part e x c
  have silent : ∀ {events : List Event} {pending},announcementsEntered events x c=[] →
      announcementsRouted events x c=[] →
      (announcementsEntered s.log x c++pending).Sublist (announcementsRouted s.log x c) →
      (announcementsEntered (s.log++events) x c++pending).Sublist
        (announcementsRouted (s.log++events) x c) := by
    intro events pending hentered hrouted hpart
    rw [announcementsEntered_append,announcementsRouted_append,hentered,hrouted,List.append_nil,
      List.append_nil]
    exact hpart
  -- an enqueue call that ends without an entry
  have ended : ∀ {f b entry rest underMu blocked} {event : Event},
      s.handlers f=.enqueuing ((b,entry)::rest) underMu blocked →
      announcementsEntered [event] x c=[] → announcementsRouted [event] x c=[] →
      (announcementsEntered (s.log++[event]) x c++(broadcasting (Function.update s.handlers f
        (.enqueuing rest underMu false) e)).filterMap (announcement x c)).Sublist
          (announcementsRouted (s.log++[event]) x c) := by
    intro f b entry rest underMu blocked event hpc hentered hrouted
    refine silent hentered hrouted ?_
    by_cases hef : e=f
    · rw [hef,Function.update_self]
      have hpart := hE.part f x c
      rw [hpc] at hpart
      cases underMu
      · exact hpart
      · refine List.Sublist.trans ?_ hpart
        refine List.Sublist.append (List.Sublist.refl _) ?_
        exact (List.sublist_cons_self _ _).filterMap _
    · rw [Function.update_of_ne hef]
      exact hE.part e x c
  -- an enqueue call that ends with an entry
  have enters : ∀ {f b entry rest underMu blocked},
      s.handlers f=.enqueuing ((b,entry)::rest) underMu blocked →
      (announcementsEntered (s.log++[.entered b entry]) x c++(broadcasting
        (Function.update s.handlers f (.enqueuing rest underMu false) e)).filterMap
          (announcement x c)).Sublist (announcementsRouted (s.log++[.entered b entry]) x c) := by
    intro f b entry rest underMu blocked hpc
    have hrouted : announcementsRouted [.entered b entry] x c=[] := rfl
    rw [announcementsEntered_append,announcementsRouted_append,announcementsEntered_entered,
      hrouted,List.append_nil]
    cases underMu with
    | false =>
      have hnone : announcement x c (b,entry)=none := by
        refine if_neg fun hand => ?_
        have hfalse := hE.targeted f _ _ hpc (b,entry) List.mem_cons_self
        rw [hand.2.1] at hfalse
        cases hfalse
      rw [hnone,Option.toList_none,List.append_nil]
      exact quiet (.inr rfl)
    | true =>
      have hwhole := hE.part f x c
      have hhead : (broadcasting (s.handlers f)).filterMap (announcement x c)=
          (announcement x c (b,entry)).toList++rest.filterMap (announcement x c) := by
        rw [hpc]
        unfold broadcasting
        rw [List.filterMap_cons]
        cases announcement x c (b,entry) <;> rfl
      rw [hhead,← List.append_assoc] at hwhole
      by_cases hef : e=f
      · rw [hef,Function.update_self]
        exact hwhole
      · rw [Function.update_of_ne hef,broadcasting_other hO hpc hef,List.filterMap_nil,
          List.append_nil]
        exact (List.sublist_append_left _ _).trans hwhole
  cases h with
  | skip | ignore | rotateKey | kickClient | deleteRoom | closeDone | closeOut | closeSkip
    | tailKick | tailDelete | writerSent | writerError | writerEnd => exact hE.part e x c
  | block hpc =>
    refine quiet (.inl ?_)
    rw [hpc]
    cases ‹Bool› <;> rfl
  | writerTake => exact silent rfl rfl (hE.part e x c)
  | discard hpc | dropData hpc | giveUp hpc => exact ended hpc rfl rfl
  | enter hpc | send hpc => exact enters hpc
  | @routeTarget f target order annOrder packet r hpc hmu hroom hbroadcast =>
    refine silent (announcementsEntered_routedEvents _) ?_ (quiet (.inr rfl))
    have hfalse : announces packet=false := by
      unfold announces
      rw [hbroadcast]
      rfl
    have hnone : announcement x c (target,⟨packet,false⟩)=none := by
      refine if_neg fun hand => ?_
      rw [hfalse] at hand
      cases hand.2.1
    rw [announcementsRouted_routedEvents,List.filterMap_cons,hnone]
    rfl
  | @routeBroadcast f order annOrder packet r hpc hmu hroom =>
    dsimp only
    rw [announcementsEntered_append,announcementsRouted_append,
      announcementsEntered_routedEvents,announcementsRouted_routedEvents,List.append_nil]
    refine List.Sublist.append entered ?_
    by_cases hef : e=f
    · rw [hef,Function.update_self]
      exact List.Sublist.refl _
    · have howned := hO e
      have hnone : owned s.mu e=none := by
        rw [hmu]
        rfl
      rw [hnone] at howned
      have hidle : broadcasting (s.handlers e)=[] := by
        cases hpc' : s.handlers e with
        | enqueuing todo underMu blocked =>
          rw [hpc'] at howned
          cases underMu
          · rfl
          · cases howned
        | _ => rfl
      rw [Function.update_of_ne hef,hidle]
      exact List.nil_sublist _
  | _ =>
    exact quiet (.inr rfl)

end Entering

section Freshness

variable {cfg : Config} {s t : Server} {action : Action}

/-- What is stored and what was routed keeps to the order of the senders. -/
structure Fresh (s : Server) : Prop where
  /-- A stored announcement is in its place. -/
  place : ∀ n d p,announced s.rooms n d=some p → announces p=true ∧
    (s.conns p.src).accepted=true ∧ (s.conns p.src).room=n ∧ (s.conns p.src).dev=d
  /-- Stored announcements were read before the record in hand. -/
  storedPast : ∀ n d p,announced s.rooms n d=some p → Past s p
  /-- So were the routed ones. -/
  routedPast : ∀ x c,∀ q∈announcementsRouted s.log x c,q.src=x ∧ Past s q
  /-- Nothing newer than a stored announcement was routed. -/
  newest : ∀ n d p,announced s.rooms n d=some p →
    ∀ c,∀ q∈announcementsRouted s.log p.src c,q.seq≤p.seq
  /-- The routed announcements are in order. -/
  ordered : ∀ x c,(announcementsRouted s.log x c).Pairwise fun p q => p.seq≤q.seq
  /-- The record in hand is the last one read. -/
  current : ∀ x q,s.handlers x=.routing q → q.seq+1=s.received x

/-- A record that was read before stays so. -/
theorem past_step (h : Transition cfg s action t) {p : Sent} (hp : Past s p) : Past t p := by
  obtain ⟨hlt,hbefore⟩ := hp
  rcases reading_step h p.src with ⟨-,hreceived,hback⟩ | ⟨raw,-,hreceived,-,hpc⟩
  · rw [← hreceived] at hlt
    exact ⟨hlt,fun q hq => hbefore q (hback q hq)⟩
  · refine ⟨by omega,fun q hq => ?_⟩
    rw [hpc] at hq
    cases hq
    exact hlt

theorem current_step (hF : Fresh s) (h : Transition cfg s action t) (x : ConnId) (q : Sent)
    (hq : t.handlers x=.routing q) : q.seq+1=t.received x := by
  rcases reading_step h x with ⟨-,hreceived,hback⟩ | ⟨raw,-,hreceived,-,hpc⟩
  · rw [hreceived]
    exact hF.current x q (hback q hq)
  · rw [hpc] at hq
    cases hq
    exact hreceived.symm

/-- An accepted client stays accepted, in its place. -/
theorem place_step (hI : Registry s) (h : Transition cfg s action t) {x : ConnId}
    (hx : (s.conns x).accepted=true) :
    (t.conns x).accepted=true ∧ regPlace (t.conns x)=regPlace (s.conns x) := by
  refine ⟨(closing_step hI h x hx).1,?_⟩
  cases h with
  | drop | join | enter | block | send | giveUp | closeDone | closeOut | tailRemove | writerTake
    | writerError => exact update_field regPlace (by rfl) x
  | @hello c _ _ hpc =>
    have hxc : x≠c := by
      rintro rfl
      rw [(hI.outside x (by rw [hpc]; rfl)).1] at hx
      cases hx
    dsimp only
    rw [Function.update_of_ne hxc]
  | _ => rfl

/-- A step that stores an announcement. -/
structure Stores (s : Server) (action : Action) (p : Sent) : Prop where
  /-- It is a step of `routePacket` for its sender. -/
  routes : ∃ order annOrder,action=.routePacket p.src order annOrder
  /-- The announcement is in hand. -/
  inHand : s.handlers p.src=.routing p
  /-- It is a broadcast ANNOUNCE. -/
  announces : announces p=true
  /-- The room exists. -/
  room : (s.rooms.lookup (s.conns p.src).room).isSome

/-- An announcement that is stored after a step was stored before, or the step stores it. -/
theorem announced_step (hI : Registry s) (hQ : Queues s) (h : Transition cfg s action t)
    {n : RoomName} {d : UInt16} {p : Sent} (hp : announced t.rooms n d=some p) :
    announced s.rooms n d=some p ∧ (∀ q,Stores s action q →
        ¬((s.conns q.src).room=n ∧ (s.conns q.src).dev=d)) ∨
      Stores s action p ∧ (s.conns p.src).room=n ∧ (s.conns p.src).dev=d := by
  have hstep := h
  have other : (∀ c order annOrder,action≠.routePacket c order annOrder) →
      announced s.rooms n d=some p → announced s.rooms n d=some p ∧
        ∀ q,Stores s action q → ¬((s.conns q.src).room=n ∧ (s.conns q.src).dev=d) := by
    intro hne hbefore
    refine ⟨hbefore,fun q hq => ?_⟩
    obtain ⟨order,annOrder,haction⟩ := hq.routes
    exact absurd haction (hne _ _ _)
  have quiet : editsRooms action=false → (∀ c order annOrder,action≠.routePacket c order annOrder) →
      announced s.rooms n d=some p ∧
        ∀ q,Stores s action q → ¬((s.conns q.src).room=n ∧ (s.conns q.src).dev=d) := by
    intro hquiet hne
    rw [(transition_sameRooms hI hstep hquiet).1] at hp
    exact other hne hp
  have routed : ∀ {c order annOrder packet},action=.routePacket c order annOrder →
      s.handlers c=.routing packet → ∀ q,Stores s action q → q=packet := by
    intro c order annOrder packet haction hpc q hq
    obtain ⟨order',annOrder',haction'⟩ := hq.routes
    rw [haction] at haction'
    cases haction'
    have hin := hq.inHand
    rw [hpc] at hin
    cases hin
    rfl
  cases h with
  | skip hidle =>
    refine .inl (other ?_ hp)
    rintro c order annOrder rfl
    cases hidle
  | drop hdrop =>
    refine .inl (other ?_ hp)
    rintro c order annOrder rfl
    cases hdrop
  | ignore => exact .inl (other (by simp) hp)
  | @join c rooms hpc hmu hadd =>
    dsimp only at hp
    rw [announced_addClient hadd] at hp
    exact .inl (other (by simp) hp)
  | @routeNoRoom c order annOrder packet hpc hmu hroom =>
    refine .inl ⟨hp,fun q hq => ?_⟩
    have heq := routed rfl hpc q hq
    have hsrc := hQ.origin c packet hpc
    have hsome := hq.room
    rw [heq,hsrc,hroom] at hsome
    cases hsome
  | @routeUnknown c order annOrder packet r hpc hmu hroom hbroadcast htarget =>
    refine .inl ⟨hp,fun q hq => ?_⟩
    have heq := routed rfl hpc q hq
    have hann := hq.announces
    rw [heq] at hann
    unfold RelayServerReplay.announces at hann
    rw [hbroadcast] at hann
    cases hann
  | @routeTarget c target order annOrder packet r hpc hmu hroom hbroadcast =>
    refine .inl ⟨hp,fun q hq => ?_⟩
    have heq := routed rfl hpc q hq
    have hann := hq.announces
    rw [heq] at hann
    unfold RelayServerReplay.announces at hann
    rw [hbroadcast] at hann
    cases hann
  | @routeBroadcast c order annOrder packet r hpc hmu hroom horder hperm hbroadcast =>
    have hsrc := hQ.origin c packet hpc
    dsimp only at hp
    rw [announced_storeAnnounce hroom] at hp
    split at hp
    next hthis =>
      cases hp
      obtain ⟨htyp,rfl,rfl⟩ := hthis
      refine .inr ⟨⟨⟨order,annOrder,by rw [hsrc]⟩,by rw [hsrc]; exact hpc,?_,?_⟩,?_,?_⟩
      · unfold RelayServerReplay.announces
        rw [hbroadcast,htyp]
        rfl
      · rw [hsrc,hroom]
        rfl
      · rw [hsrc]
      · rw [hsrc]
    next hthis =>
      refine .inl ⟨hp,fun q hq hplace => hthis ?_⟩
      have heq := routed rfl hpc q hq
      have hann := hq.announces
      rw [heq,hsrc] at hplace
      rw [heq] at hann
      unfold RelayServerReplay.announces at hann
      rw [hbroadcast,Bool.true_and,decide_eq_true_eq] at hann
      exact ⟨hann,hplace.1.symm,hplace.2.symm⟩
  | @tailRemove c hmu =>
    dsimp only [disconnectClientLocked] at hp
    exact .inl (other (by simp) (announced_deleteClient hp).1)
  | @tailKick room dev hmu =>
    dsimp only at hp
    exact .inl (other (by simp) (announced_deleteClient hp).1)
  | @tailDelete room hmu =>
    dsimp only at hp
    rw [announced_erase] at hp
    split at hp
    · cases hp
    · exact .inl (other (by simp) hp)
  | _ => exact .inl (quiet rfl (by simp))

/-- A step that answers a DISCOVER with a stored announcement. -/
structure Replays (s : Server) (action : Action) (c : ConnId) (p : Sent) : Prop where
  /-- It is a step of `routePacket` for the receiver. -/
  routes : ∃ order annOrder,action=.routePacket c order annOrder
  /-- A broadcast DISCOVER is in hand. -/
  inHand : ∃ packet,s.handlers c=.routing packet ∧ discovers packet=true
  /-- The announcement is stored in the room of the receiver, under another device. -/
  stored : announced s.rooms (s.conns c).room (s.conns p.src).dev=some p
  /-- The device is another one. -/
  other : (s.conns p.src).dev≠(s.conns c).dev

theorem Replays.stores_nothing {c : ConnId} {p q : Sent} (h : Replays s action c p) :
    ¬Stores s action q := by
  intro hq
  obtain ⟨order,annOrder,haction⟩ := h.routes
  obtain ⟨order',annOrder',haction'⟩ := hq.routes
  obtain ⟨packet,hpc,hdiscover⟩ := h.inHand
  have hin := hq.inHand
  have hann := hq.announces
  rw [haction] at haction'
  cases haction'
  rw [hpc] at hin
  cases hin
  simp only [discovers,RelayServerReplay.announces,Bool.and_eq_true,decide_eq_true_eq]
    at hdiscover hann
  rw [hdiscover.2] at hann
  exact absurd hann.2 (by decide)

/-- The stored announcements that a DISCOVER is answered with. -/
theorem mem_replays {r : Room} {c : ConnId} {annOrder : List UInt16} {p : Sent}
    (hroom : s.rooms.lookup (s.conns c).room=some r) (hF : Fresh s)
    (h : p∈replays r (s.conns c).dev annOrder) :
    (s.conns p.src).dev∈annOrder ∧
      announced s.rooms (s.conns c).room (s.conns p.src).dev=some p ∧
      (s.conns p.src).dev≠(s.conns c).dev := by
  obtain ⟨d,hd,hlookup⟩ := List.mem_filterMap.mp h
  split at hlookup
  · cases hlookup
  next hne =>
    have hann : announced s.rooms (s.conns c).room d=some p := by
      rw [announced,hroom]
      exact hlookup
    have hdev := (hF.place _ _ _ hann).2.2.2
    rw [hdev]
    exact ⟨hd,hann,hne⟩

/-- What a step routes from a sender to a receiver: nothing, the announcement that it
stores, or the one that it replays. -/
theorem routed_step (hQ : Queues s) (hF : Fresh s) (h : Transition cfg s action t)
    (x c : ConnId) : ∃ news,
      announcementsRouted t.log x c=announcementsRouted s.log x c++news ∧
      (∀ q∈news,q.src=x ∧ (Stores s action q ∨ Replays s action c q)) ∧
      ∀ q∈news,∀ q'∈news,q=q' := by
  have none_ : ∀ {news : List Sent},news=[] →
      (∀ q∈news,q.src=x ∧ (Stores s action q ∨ Replays s action c q)) ∧
        ∀ q∈news,∀ q'∈news,q=q' := by
    rintro news rfl
    exact ⟨fun q hq => by (cases hq),fun q hq => by (cases hq)⟩
  have silent : ∀ {events},announcementsRouted events x c=[] → ∃ news,
      announcementsRouted (s.log++events) x c=announcementsRouted s.log x c++news ∧
      (∀ q∈news,q.src=x ∧ (Stores s action q ∨ Replays s action c q)) ∧
      ∀ q∈news,∀ q'∈news,q=q' :=
    fun hevents => ⟨_,announcementsRouted_append,none_ hevents⟩
  cases h with
  | discard | enter | dropData | send | giveUp | writerTake => exact silent rfl
  | @routeTarget f target order annOrder packet r hpc hmu hroom hbroadcast =>
    refine silent ?_
    have hnone : announcement x c (target,⟨packet,false⟩)=none := by
      refine if_neg fun hand => ?_
      have hann := hand.2.1
      unfold announces at hann
      rw [hbroadcast] at hann
      cases hann
    rw [announcementsRouted_routedEvents,List.filterMap_cons,hnone]
    rfl
  | @routeBroadcast f order annOrder packet r hpc hmu hroom horder hperm hbroadcast =>
    have hsrc := hQ.origin f packet hpc
    refine ⟨(broadcastTodo r (s.conns f).dev f packet order annOrder).filterMap
      (announcement x c),?_,?_,?_⟩
    · dsimp only
      rw [announcementsRouted_append,announcementsRouted_routedEvents]
    -- a hand-off is the record in hand, or the answer to it
    all_goals
      have hkind : ∀ q∈(broadcastTodo r (s.conns f).dev f packet order annOrder).filterMap
          (announcement x c),q.src=x ∧ (q=packet ∧ announces packet=true ∨
            f=c ∧ discovers packet=true ∧
              announced s.rooms (s.conns f).room (s.conns q.src).dev=some q ∧
              (s.conns q.src).dev≠(s.conns f).dev) := by
        intro q hq
        obtain ⟨hand,hmem,hsome⟩ := List.mem_filterMap.mp hq
        obtain ⟨hreceiver,hann,hq,hsent⟩ := announcement_eq_some hsome
        refine ⟨hq,?_⟩
        unfold broadcastTodo at hmem
        rcases List.mem_append.mp hmem with hreplay | hlive
        · split at hreplay
          next htyp =>
            obtain ⟨ann,hin,rfl⟩ := List.mem_map.mp hreplay
            dsimp only at hreceiver hsent
            subst hsent
            obtain ⟨-,hstored,hne⟩ := mem_replays hroom hF hin
            refine .inr ⟨hreceiver,?_,hstored,hne⟩
            unfold discovers
            rw [hbroadcast,htyp]
            rfl
          next => cases hreplay
        · obtain ⟨b,-,rfl⟩ := List.mem_map.mp hlive
          dsimp only at hsent
          rw [← hsent] at hann
          exact .inl ⟨hsent.symm,hann⟩
    · intro q hq
      obtain ⟨hx,⟨rfl,hann⟩ | ⟨rfl,hdiscover,hstored,hne⟩⟩ := hkind q hq
      · refine ⟨hx,.inl ⟨⟨order,annOrder,by rw [hsrc]⟩,by rw [hsrc]; exact hpc,hann,?_⟩⟩
        rw [hsrc,hroom]
        rfl
      · exact ⟨hx,.inr ⟨⟨order,annOrder,rfl⟩,⟨packet,hpc,hdiscover⟩,hstored,hne⟩⟩
    · intro q hq q' hq'
      obtain ⟨hx,⟨rfl,hann⟩ | ⟨-,hdiscover,hstored,-⟩⟩ := hkind q hq
      · obtain ⟨hx',⟨rfl,-⟩ | ⟨-,hdiscover,-⟩⟩ := hkind q' hq'
        · rfl
        · simp only [discovers,announces,Bool.and_eq_true,decide_eq_true_eq] at hdiscover hann
          rw [hdiscover.2] at hann
          exact absurd hann.2 (by decide)
      · obtain ⟨hx',⟨rfl,hann⟩ | ⟨-,-,hstored',-⟩⟩ := hkind q' hq'
        · simp only [discovers,announces,Bool.and_eq_true,decide_eq_true_eq] at hdiscover hann
          rw [hdiscover.2] at hann
          exact absurd hann.2 (by decide)
        · rw [hx] at hstored
          rw [hx',hstored] at hstored'
          exact Option.some.inj hstored'
  | _ =>
    exact ⟨[],(List.append_nil _).symm,none_ rfl⟩

/-- A record that is stored was read before what comes in hand later. -/
theorem stores_past (hF : Fresh s) (h : Transition cfg s action t) {p : Sent}
    (hp : Stores s action p) : Past t p := by
  obtain ⟨order,annOrder,rfl⟩ := hp.routes
  have hcurrent := hF.current p.src p hp.inHand
  have hafter : ∀ q,t.handlers p.src≠.routing q := by
    intro q hq
    cases h with
    | skip hidle => cases hidle
    | drop hdrop => cases hdrop
    | routeNoRoom | routeBroadcast | routeUnknown | routeTarget =>
      dsimp only at hq
      rw [Function.update_self] at hq
      cases hq
  refine ⟨?_,fun q hq => absurd hq (hafter q)⟩
  rcases reading_step h p.src with ⟨-,hreceived,-⟩ | ⟨raw,-,-,hpc,-⟩
  · omega
  · rw [hp.inHand] at hpc
    cases hpc

/-- One step keeps everything fresh. -/
theorem fresh_kept (hI : Registry s) (hQ : Queues s) (hF : Fresh s)
    (h : Transition cfg s action t) : Fresh t := by
  refine ⟨fun n d p hp => ?_,fun n d p hp => ?_,fun x c q hq => ?_,fun n d p hp c q hq => ?_,
    fun x c => ?_,current_step hF h⟩
  · rcases announced_step hI hQ h hp with ⟨hbefore,-⟩ | ⟨hstores,hroom,hdev⟩
    · obtain ⟨hann,hacc,hroom,hdev⟩ := hF.place n d p hbefore
      obtain ⟨hacc',hplace⟩ := place_step hI h hacc
      exact ⟨hann,hacc',(congrArg Prod.fst hplace).trans hroom,
        (congrArg Prod.snd hplace).trans hdev⟩
    · have hacc := hI.inside p.src (by rw [hstores.inHand]; rfl)
      obtain ⟨hacc',hplace⟩ := place_step hI h hacc
      exact ⟨hstores.announces,hacc',(congrArg Prod.fst hplace).trans hroom,
        (congrArg Prod.snd hplace).trans hdev⟩
  · rcases announced_step hI hQ h hp with ⟨hbefore,-⟩ | ⟨hstores,-⟩
    · exact past_step h (hF.storedPast n d p hbefore)
    · exact stores_past hF h hstores
  · obtain ⟨news,hlog,hnews,-⟩ := routed_step hQ hF h x c
    rw [hlog] at hq
    rcases List.mem_append.mp hq with hold | hnew
    · obtain ⟨hx,hpast⟩ := hF.routedPast x c q hold
      exact ⟨hx,past_step h hpast⟩
    · obtain ⟨hx,hstores | hreplays⟩ := hnews q hnew
      · exact ⟨hx,stores_past hF h hstores⟩
      · exact ⟨hx,past_step h (hF.storedPast _ _ _ hreplays.stored)⟩
  · obtain ⟨news,hlog,hnews,-⟩ := routed_step hQ hF h p.src c
    rw [hlog] at hq
    rcases announced_step hI hQ h hp with ⟨hbefore,hfree⟩ | ⟨hstores,hroom,hdev⟩
    · rcases List.mem_append.mp hq with hold | hnew
      · exact hF.newest n d p hbefore c q hold
      · obtain ⟨-,-,hroom,hdev⟩ := hF.place n d p hbefore
        obtain ⟨hx,hstores | hreplays⟩ := hnews q hnew
        · refine absurd ⟨?_,?_⟩ (hfree q hstores)
          · rw [hx]
            exact hroom
          · rw [hx]
            exact hdev
        · have hstored := hreplays.stored
          have hplace := (hF.place _ _ _ hstored).2.2.1
          rw [hx] at hstored hplace
          rw [← hplace,hroom,hdev,hbefore] at hstored
          exact Nat.le_of_eq (congrArg Sent.seq (Option.some.inj hstored).symm)
    · rcases List.mem_append.mp hq with hold | hnew
      · obtain ⟨hx,hpast⟩ := hF.routedPast p.src c q hold
        exact Nat.le_of_lt (hpast.2 p (by rw [hx]; exact hstores.inHand))
      · obtain ⟨hx,hstores' | hreplays⟩ := hnews q hnew
        · have hin := hstores'.inHand
          rw [hx,hstores.inHand] at hin
          cases hin
          exact Nat.le_refl _
        · exact absurd hstores hreplays.stores_nothing
  · obtain ⟨news,hlog,hnews,hsame⟩ := routed_step hQ hF h x c
    rw [hlog,List.pairwise_append]
    refine ⟨hF.ordered x c,?_,fun p hp q hq => ?_⟩
    · refine List.pairwise_of_forall_mem_list fun p hp q hq => ?_
      rw [hsame p hp q hq]
    · obtain ⟨hx,hstores | hreplays⟩ := hnews q hq
      · obtain ⟨hx',hpast⟩ := hF.routedPast x c p hp
        exact Nat.le_of_lt (hpast.2 q (by rw [hx',← hx]; exact hstores.inHand))
      · exact hF.newest _ _ q hreplays.stored c p (by rw [hx]; exact hp)

end Freshness

section Answers

variable {cfg : Config} {s t : Server} {action : Action} {n : RoomName} {d : UInt16}

/-- A step that stores an announcement is recorded under its room and device. -/
theorem storedBy_of_stores {p : Sent} (h : Stores s action p) (hroom : (s.conns p.src).room=n)
    (hdev : (s.conns p.src).dev=d) : storedBy s action n d=[p] := by
  obtain ⟨order,annOrder,rfl⟩ := h.routes
  unfold storedBy
  dsimp only
  rw [h.inHand]
  exact if_pos ⟨h.announces,h.room,hroom,hdev⟩

/-- Other steps store nothing there. -/
theorem storedBy_nil (hQ : Queues s)
    (h : ∀ q,Stores s action q → ¬((s.conns q.src).room=n ∧ (s.conns q.src).dev=d)) :
    storedBy s action n d=[] := by
  cases action with
  | routePacket c order annOrder =>
    unfold storedBy
    dsimp only
    split
    next packet hpc =>
      refine if_neg ?_
      rintro ⟨hann,hsome,hroom,hdev⟩
      have hsrc := hQ.origin c packet hpc
      refine h packet ⟨⟨order,annOrder,by rw [hsrc]⟩,by rw [hsrc]; exact hpc,hann,?_⟩ ?_
      · rw [hsrc]
        exact hsome
      · rw [hsrc]
        exact ⟨hroom,hdev⟩
    next => rfl
  | _ => rfl

theorem storedFor_snoc (trace : List (Server×Action)) :
    storedFor (trace++[(s,action)]) n d=storedFor trace n d++storedBy s action n d := by
  simp [storedFor]

/-- What every run keeps: the stored announcements are the last ones stored. -/
structure Recorded (trace : List (Server×Action)) (s : Server) : Prop where
  /-- Mutexes, room table and queues are in order. -/
  wired : Wired s
  /-- The queues get parts of what is routed. -/
  entering : Entering s
  /-- The announcements are fresh. -/
  fresh : Fresh s
  /-- A stored announcement is the last one of its device. -/
  last : ∀ n d p,announced s.rooms n d=some p → (storedFor trace n d).getLast?=some p

theorem recorded_run {key : List UInt8} {trace : List (Server×Action)} {last : Server}
    (run : ServerRun cfg key trace last) : Recorded trace last := by
  induction run with
  | nil =>
    have hnone : ∀ n d p,announced (newServer key).rooms n d≠some p := by
      intro n d p hp
      simp [newServer,announced] at hp
    exact ⟨wired_newServer key,⟨fun _ _ _ => List.Sublist.refl _,fun _ _ _ h => by (cases h)⟩,
      ⟨fun n d p hp => absurd hp (hnone n d p),fun n d p hp => absurd hp (hnone n d p),
        fun _ _ q hq => by (cases hq),fun n d p hp => absurd hp (hnone n d p),
        fun _ _ => List.Pairwise.nil,fun _ _ h => by (cases h)⟩,
      fun n d p hp => absurd hp (hnone n d p)⟩
  | @snoc trace s t action run henabled ih =>
    obtain ⟨hW,hE,hF,hL⟩ := ih
    have h := step_transition henabled
    refine ⟨wired_step s action t hW henabled,⟨part_step hW.owners hE h,targeted_step hE h⟩,
      fresh_kept hW.registry hW.queues hF h,fun n d p hp => ?_⟩
    rw [storedFor_snoc]
    rcases announced_step hW.registry hW.queues h hp with ⟨hbefore,hnone⟩ | ⟨hstores,hroom,hdev⟩
    · rw [storedBy_nil hW.queues hnone,List.append_nil]
      exact hL n d p hbefore
    · rw [storedBy_of_stores hstores hroom hdev,List.getLast?_append]
      rfl

/-- Values that give back their keys are in the order of the keys. -/
theorem filterMap_keys_sublist {κ β : Type} {f : κ → Option β} {g : β → κ} (l : List κ)
    (h : ∀ k b,f k=some b → g b=k) : ((l.filterMap f).map g).Sublist l := by
  induction l with
  | nil => exact List.Sublist.refl _
  | cons k l ih =>
    rw [List.filterMap_cons]
    cases hk : f k with
    | none => exact ih.cons k
    | some b =>
      dsimp only
      rw [List.map_cons,h k b hk]
      exact ih.cons_cons k

/-- What a DISCOVER is answered with. -/
theorem answered_step {trace : List (Server×Action)} (hR : Recorded trace s) {c : ConnId}
    {order annOrder : List UInt16} {packet : Sent} (hpc : s.handlers c=.routing packet)
    (hdiscover : discovers packet=true)
    (henabled : step cfg s (.routePacket c order annOrder)=some t) :
    Answered trace s c (answers (t.handlers c)) := by
  have hnothing : ∀ {pc},todoOf pc=[] → Answered trace s c (answers pc) := by
    intro pc htodo
    unfold answers
    rw [htodo]
    exact ⟨fun _ h => by (cases h),fun _ h => by (cases h),fun _ h => by (cases h),List.nodup_nil⟩
  simp only [discovers,Bool.and_eq_true,decide_eq_true_eq] at hdiscover
  cases step_transition henabled with
  | skip hidle => cases hidle
  | drop hdrop => cases hdrop
  | routeNoRoom | routeUnknown =>
    dsimp only
    rw [Function.update_self]
    exact hnothing rfl
  | routeTarget hpc' _ _ hbroadcast =>
    rw [hpc] at hpc'
    cases hpc'
    rw [hdiscover.1] at hbroadcast
    cases hbroadcast
  | @routeBroadcast _ _ _ packet' r hpc' hmu hroom horder hperm hbroadcast =>
    rw [hpc] at hpc'
    cases hpc'
    have hanswers : answers (.enqueuing (broadcastTodo r (s.conns c).dev c packet order annOrder)
        true false)=(replays r (s.conns c).dev annOrder).map fun ann => (c,⟨ann,true⟩) := by
      unfold answers todoOf broadcastTodo
      dsimp only
      rw [if_pos hdiscover.2,List.filter_append]
      have hreplays : ((replays r (s.conns c).dev annOrder).map
          fun ann => ((c,⟨ann,true⟩) : ConnId×Entry)).filter (fun hand => hand.2.replay)=
          (replays r (s.conns c).dev annOrder).map fun ann => (c,⟨ann,true⟩) := by
        refine List.filter_eq_self.mpr fun hand hmem => ?_
        obtain ⟨ann,-,rfl⟩ := List.mem_map.mp hmem
        rfl
      have hlive : ((others r (s.conns c).dev order).map
          fun b => ((b,⟨packet,false⟩) : ConnId×Entry)).filter (fun hand => hand.2.replay)=[] := by
        refine List.filter_eq_nil_iff.mpr fun hand hmem => ?_
        obtain ⟨b,-,rfl⟩ := List.mem_map.mp hmem
        exact Bool.false_ne_true
      rw [hreplays,hlive,List.append_nil]
    dsimp only
    rw [Function.update_self,hanswers]
    refine ⟨fun hand hmem => ?_,fun hand hmem => ?_,fun hand hmem => ?_,?_⟩
    · obtain ⟨ann,-,rfl⟩ := List.mem_map.mp hmem
      rfl
    · obtain ⟨ann,hann,rfl⟩ := List.mem_map.mp hmem
      obtain ⟨-,-,hne⟩ := mem_replays hroom hR.fresh hann
      refine ⟨?_,hne⟩
      intro hsrc
      dsimp only at hsrc
      rw [hsrc] at hne
      exact hne rfl
    · obtain ⟨ann,hann,rfl⟩ := List.mem_map.mp hmem
      exact hR.last _ _ _ (mem_replays hroom hR.fresh hann).2.1
    · rw [List.map_map]
      have hkeys : annOrder.Nodup := hperm.nodup_iff.mpr r.hostAnn.nodupKeys
      refine List.Sublist.nodup (filterMap_keys_sublist (g := fun p : Sent => (s.conns p.src).dev)
        annOrder fun k b hk => ?_) hkeys
      split at hk
      · cases hk
      · have hann : announced s.rooms (s.conns c).room k=some b := by
          rw [announced,hroom]
          exact hk
        exact (hR.fresh.place _ _ _ hann).2.2.2

/-- In every run of the server the broadcast ANNOUNCE records of a sender enter the queue of
a receiver in the order they were sent, live or replayed, and a DISCOVER is answered with at
most one announcement for each other device, the last one stored for it. -/
theorem announcements_fresh {key : List UInt8} {trace : List (Server×Action)}
    (run : ServerRun cfg key trace s) :
    (∀ x c,(announcementsEntered s.log x c).Pairwise fun p q => p.seq≤q.seq) ∧
    ∀ c order annOrder packet t,s.handlers c=.routing packet → discovers packet=true →
      step cfg s (.routePacket c order annOrder)=some t →
        Answered trace s c (answers (t.handlers c)) := by
  have hR := recorded_run run
  refine ⟨fun x c => ?_,fun c order annOrder packet t hpc hdiscover henabled => ?_⟩
  · have hpart := hR.entering.part c x c
    exact (hR.fresh.ordered x c).sublist ((List.sublist_append_left _ _).trans hpart)
  · exact answered_step hR hpc hdiscover henabled

/-- An announcement is received live, and again as the answer to a DISCOVER. -/
def announceDiscover : List Action :=
  joinActions 0 (sampleHello 1 65 1)++joinActions 1 (sampleHello 2 65 1)++
  [.read 0 (samplePacket waTypeAnnounce 0),.routePacket 0 [2,1] [],.enqueue 0,.finish 0,
    .read 1 (samplePacket waTypeDiscover 0),.routePacket 1 [2,1] [1],.enqueue 1]

theorem announcements_fresh_twice : ∃ trace s,ServerRun sampleConfig [] trace s ∧
    announcementsEntered s.log 0 1=
      [⟨samplePacket waTypeAnnounce 0,0,0⟩,⟨samplePacket waTypeAnnounce 0,0,0⟩] ∧
    (announcementsEntered s.log 0 1).Pairwise fun p q => p.seq≤q.seq := by
  obtain ⟨s,hexec,hview⟩ := Option.map_eq_some_iff.mp
    (show (exec (step sampleConfig) (newServer []) announceDiscover).map
      (fun s => announcementsEntered s.log 0 1)=
        some [⟨samplePacket waTypeAnnounce 0,0,0⟩,⟨samplePacket waTypeAnnounce 0,0,0⟩] by rfl)
  obtain ⟨trace,run⟩ := Run.nil.exec hexec
  exact ⟨trace,s,run,hview,(announcements_fresh run).1 0 1⟩

end Answers

end ChisLink.RelayServerReplay
