import ChisLink.RelayServerDelivery

/-!
# Delivery in the order of the sender

The records that a connection routes to a client are read off the actions of a
run. They are the valid records of the connection addressed to that client, in
the order they were read, and each enters the queue of the client exactly once
in that order unless it is DATA and finds the queue full.
-/

namespace ChisLink.RelayServerOrder

open LabelledRuns RelayServerModel RelayServerStep RelayServerMutex RelayServerRegistry
  RelayServerQueue RelayServerIncarnation RelayServerDelivery

/-- The valid record that a step reads from a connection. -/
def readBy (action : Action) (a : ConnId) : List Packet :=
  match action with
  | .read c raw => if c=a ∧ validPacket raw=true then [raw] else []
  | _ => []

/-- The valid records read from a connection along a run. -/
def validReads (trace : List (Server×Action)) (a : ConnId) : List Packet :=
  trace.flatMap fun entry => readBy entry.2 a

/-- A record of one device goes to another one, by target or by broadcast. -/
def addressed (h : PacketHeader) (sender receiver : UInt16) : Bool :=
  if isBroadcast h then receiver≠sender else h.target=receiver

/-- The record that a step routes from one connection to a client of its room. -/
def routesTo (s : Server) (action : Action) (a b : ConnId) : List Sent :=
  match action,s.handlers a with
  | .routePacket c _ _,.routing packet =>
    if c=a then
      match s.rooms.lookup (s.conns a).room with
      | none => []
      | some r =>
        if r.clients.lookup (s.conns b).dev=some b ∧
            addressed (parseHeader packet.raw) (s.conns a).dev (s.conns b).dev
        then [packet] else []
    else []
  | _,_ => []

/-- The records routed from one connection to a client along a run. -/
def routesBetween (trace : List (Server×Action)) (a b : ConnId) : List Sent :=
  trace.flatMap fun entry => routesTo entry.1 entry.2 a b

/-- The live records of a sender that entered a queue, in order. -/
def enteredFrom (log : List Event) (a b : ConnId) : List Sent :=
  (enteredLog log b).filterMap fun entry => live a b (b,entry)

/-- One more step reads what it reads. -/
theorem validReads_snoc (trace : List (Server×Action)) (s : Server) (action : Action)
    (a : ConnId) : validReads (trace++[(s,action)]) a=validReads trace a++readBy action a := by
  simp [validReads]

/-- One more step routes what it routes. -/
theorem routesBetween_snoc (trace : List (Server×Action)) (s : Server) (action : Action)
    (a b : ConnId) : routesBetween (trace++[(s,action)]) a b=
      routesBetween trace a b++routesTo s action a b := by
  simp [routesBetween]

/-- A search that can succeed at one key only, in a list without repetitions. -/
theorem filterMap_unique {κ β : Type} [DecidableEq κ] {l : List κ} (hnodup : l.Nodup)
    {f : κ → Option β} {k : κ} {v : Option β} (hf : ∀ d∈l,f d=if d=k then v else none) :
    l.filterMap f=if k∈l then v.toList else [] := by
  induction l with
  | nil => rfl
  | cons d l ih =>
    obtain ⟨hd,hnodup⟩ := List.nodup_cons.mp hnodup
    have ih := ih hnodup fun e he => hf e (List.mem_cons_of_mem d he)
    rw [List.filterMap_cons,hf d List.mem_cons_self,ih]
    by_cases hdk : d=k
    · subst hdk
      rw [if_pos rfl,if_neg hd,if_pos List.mem_cons_self]
      cases v <;> rfl
    · rw [if_neg hdk]
      simp only [List.mem_cons,Ne.symm hdk,false_or]

/-- A broadcast selects every other client of the room exactly once. -/
theorem broadcastTodo_live {s : Server} (hI : Registry s) {r : Room} {a b : ConnId}
    {packet : Sent} {order annOrder : List UInt16} (hsrc : packet.src=a)
    (hroom : s.rooms.lookup (s.conns a).room=some r) (horder : order.Perm r.clients.keys) :
    (broadcastTodo r (s.conns a).dev a packet order annOrder).filterMap (live a b)=
      if r.clients.lookup (s.conns b).dev=some b ∧ (s.conns b).dev≠(s.conns a).dev
      then [packet] else [] := by
  have hreplay : ∀ anns : List Sent,
      (anns.map fun ann => ((a,⟨ann,true⟩) : ConnId×Entry)).filterMap (live a b)=[] := by
    intro anns
    rw [List.filterMap_map]
    refine List.filterMap_eq_nil_iff.mpr fun ann _ => if_neg ?_
    rintro ⟨_,h,_⟩
    cases h
  have hhead : (if (parseHeader packet.raw).typ=waTypeDiscover then
      (replays r (s.conns a).dev annOrder).map fun ann => ((a,⟨ann,true⟩) : ConnId×Entry)
      else []).filterMap (live a b)=[] := by
    split
    · exact hreplay _
    · rfl
  have hnodup : order.Nodup := horder.nodup_iff.mpr r.clients.nodupKeys
  have hsingle : ∀ d∈order,((if d=(s.conns a).dev then none else r.clients.lookup d).bind
      fun x => live a b (x,⟨packet,false⟩))=
      if d=(s.conns b).dev then
        (if r.clients.lookup (s.conns b).dev=some b ∧ (s.conns b).dev≠(s.conns a).dev
          then some packet else none) else none := by
    intro d _
    by_cases hda : d=(s.conns a).dev
    · rw [if_pos hda,Option.bind_none]
      split
      · rename_i hdb
        rw [if_neg (fun h => h.2 (hdb.symm.trans hda))]
      · rfl
    · rw [if_neg hda]
      cases hlookup : r.clients.lookup d with
      | none =>
        rw [Option.bind_none]
        split
        · rename_i hdb
          rw [if_neg]
          rintro ⟨h,_⟩
          rw [←hdb,hlookup] at h
          cases h
        · rfl
      | some x =>
        have hdev := (hI.stored _ d x (by rw [registered_of_room hroom,hlookup])).2.1
        rw [Option.bind_some,live]
        dsimp only
        by_cases hxb : x=b
        · subst hxb
          rw [if_pos ⟨rfl,rfl,hsrc⟩,if_pos hdev.symm,hdev,
            if_pos ⟨hlookup,hda⟩]
        · rw [if_neg (fun h => hxb h.1)]
          split
          · rename_i hdb
            rw [if_neg]
            rintro ⟨h,_⟩
            rw [←hdb,hlookup] at h
            cases h
            exact hxb rfl
          · rfl
  unfold broadcastTodo others
  rw [List.filterMap_append,hhead,List.nil_append,List.filterMap_map,List.filterMap_filterMap]
  refine (filterMap_unique hnodup hsingle).trans ?_
  by_cases hb : r.clients.lookup (s.conns b).dev=some b ∧ (s.conns b).dev≠(s.conns a).dev
  · have hmem : (s.conns b).dev∈order :=
      horder.mem_iff.mpr (AList.mem_keys.mp (AList.lookup_isSome.mp (by rw [hb.1]; rfl)))
    rw [if_pos hmem,if_pos hb,if_pos hb]
    rfl
  · rw [if_neg hb,if_neg hb]
    exact ite_self _

/-- A routing step of another connection routes nothing from this one. -/
theorem routesTo_other {s : Server} {a b c : ConnId} {order annOrder : List UInt16}
    (hca : c≠a) : routesTo s (.routePacket c order annOrder) a b=[] := by
  cases hpc : s.handlers a <;> simp only [routesTo,hpc]
  exact if_neg hca

/-- A step logs exactly the record it routes between the two clients. -/
theorem routedLog_step {cfg : Config} {s t : Server} {action : Action} (hI : Delivering s)
    (h : Transition cfg s action t) (a b : ConnId) :
    routedLog t.log a b=routedLog s.log a b++routesTo s action a b := by
  have quiet : ∀ {events},routedLog events a b=[] → routesTo s action a b=[] →
      routedLog (s.log++events) a b=routedLog s.log a b++routesTo s action a b := by
    intro events hevents hroutes
    rw [routedLog_append,hevents,hroutes]
  have silent : routesTo s action a b=[] →
      routedLog s.log a b=routedLog s.log a b++routesTo s action a b := by
    intro hroutes
    rw [hroutes,List.append_nil]
  cases h with
  | skip hidle => cases action <;> first | exact silent rfl | cases hidle
  | drop hdrop => cases action <;> first | exact silent rfl | cases hdrop
  | discard | enter | dropData | send | giveUp | writerTake => exact quiet rfl rfl
  | @routeNoRoom c order annOrder packet hpc hmu hroom =>
    refine silent ?_
    by_cases hca : c=a
    · subst hca
      simp only [routesTo,hpc,hroom,if_true]
    · exact routesTo_other hca
  | @routeUnknown c order annOrder packet r hpc hmu hroom hsingle htarget =>
    refine silent ?_
    by_cases hca : c=a
    · subst hca
      simp only [routesTo,hpc,hroom,if_true]
      refine if_neg ?_
      rintro ⟨hb,haddr⟩
      simp only [addressed,hsingle,Bool.false_eq_true,if_false,decide_eq_true_eq] at haddr
      rw [←haddr,htarget] at hb
      cases hb
    · exact routesTo_other hca
  | @routeTarget c target order annOrder packet r hpc hmu hroom hsingle htarget =>
    dsimp only
    rw [routedLog_append,routedLog_routedEvents]
    congr 1
    have hsrc := hI.wired.queues.origin c packet hpc
    by_cases hca : c=a
    · subst hca
      simp only [routesTo,hpc,hroom,if_true]
      have hdev := (hI.wired.registry.stored _ _ target
        (by rw [registered_of_room hroom,htarget])).2.1
      simp only [addressed,hsingle,Bool.false_eq_true,if_false,decide_eq_true_eq]
      rw [List.filterMap_cons,List.filterMap_nil,live]
      dsimp only
      by_cases htb : target=b
      · subst htb
        rw [if_pos ⟨rfl,rfl,hsrc⟩,if_pos ⟨by rw [hdev,htarget],hdev.symm⟩]
      · rw [if_neg (fun h => htb h.1),if_neg]
        rintro ⟨hb,haddr⟩
        rw [←haddr,htarget] at hb
        cases hb
        exact htb rfl
    · have hnone : live a b (target,⟨packet,false⟩)=none :=
        live_of_own (fun _ => hsrc) (Ne.symm hca)
      rw [List.filterMap_cons,hnone,routesTo_other hca]
      rfl
  | @routeBroadcast c order annOrder packet r hpc hmu hroom horder _ hbroadcast =>
    dsimp only
    rw [routedLog_append,routedLog_routedEvents]
    congr 1
    have hsrc := hI.wired.queues.origin c packet hpc
    by_cases hca : c=a
    · subst hca
      simp only [routesTo,hpc,hroom,if_true]
      rw [broadcastTodo_live hI.wired.registry hsrc hroom horder]
      simp only [addressed,hbroadcast,if_true,decide_eq_true_eq]
    · rw [List.filterMap_eq_nil_iff.mpr fun hand hmem =>
        live_of_own (broadcastTodo_own hsrc hand hmem) (Ne.symm hca),routesTo_other hca]
  | _ => exact silent rfl


/-- A step that reads no valid record from a connection leaves its counter and
its record in hand alone, or takes that record out of hand. -/
theorem reading_step {cfg : Config} {s t : Server} {action : Action}
    (h : Transition cfg s action t) (a : ConnId) :
    (readBy action a=[] ∧ t.received a=s.received a ∧
      ∀ q,t.handlers a=.routing q → s.handlers a=.routing q) ∨
    ∃ raw,readBy action a=[raw] ∧ t.received a=s.received a+1 ∧
      s.handlers a=.reading ∧ t.handlers a=.routing ⟨raw,a,s.received a⟩ := by
  have handler : ∀ {c pc},(∀ q,pc≠.routing q) → ∀ q,
      Function.update s.handlers c pc a=.routing q → s.handlers a=.routing q := by
    intro c pc hne q hset
    by_cases hac : a=c
    · rw [hac,Function.update_self] at hset
      exact absurd hset (hne q)
    · rwa [Function.update_of_ne hac] at hset
  cases h with
  | rotateKey | kickClient | deleteRoom | closeDone | closeOut | closeSkip | tailKick | tailDelete
    | writerTake | writerSent | writerError | writerEnd => exact Or.inl ⟨rfl,rfl,fun _ h => h⟩
  | skip hidle => cases action <;> first | exact Or.inl ⟨rfl,rfl,fun _ h => h⟩ | cases hidle
  | drop hdrop =>
    cases action <;> first | exact Or.inl ⟨rfl,rfl,handler (by simp)⟩ | cases hdrop
  | ignore _ hvalid => exact Or.inl ⟨if_neg (by simp [hvalid]),rfl,fun _ h => h⟩
  | @read c raw hpc _ hvalid =>
    by_cases hca : c=a
    · subst hca
      exact Or.inr ⟨raw,if_pos ⟨rfl,hvalid⟩,Function.update_self _ _ _,hpc,
        Function.update_self _ _ _⟩
    · dsimp only
      rw [Function.update_of_ne (Ne.symm hca),Function.update_of_ne (Ne.symm hca)]
      exact Or.inl ⟨if_neg (fun h => hca h.1),rfl,fun _ h => h⟩
  | _ =>
    exact Or.inl ⟨rfl,rfl,handler (by simp)⟩

/-- A routed record was in hand before the step and is not afterwards. -/
theorem routing_step {cfg : Config} {s t : Server} {action : Action}
    (h : Transition cfg s action t) {a b : ConnId} {p : Sent}
    (hp : p∈routesTo s action a b) :
    routesTo s action a b=[p] ∧ s.handlers a=.routing p ∧ readBy action a=[] ∧
      ∀ q,t.handlers a≠.routing q := by
  unfold routesTo at hp
  split at hp
  · rename_i c order annOrder packet hpc
    split at hp
    · rename_i hca
      subst hca
      split at hp
      · cases hp
      · rename_i r hroom
        split at hp
        · rename_i hcond
          rw [List.mem_singleton.mp hp]
          refine ⟨?_,hpc,rfl,?_⟩
          · simp only [routesTo,hpc,hroom,if_true]
            exact if_pos hcond
          · intro q hq
            cases h with
            | skip hidle => cases hidle
            | drop hdrop => cases hdrop
            | routeNoRoom | routeBroadcast | routeUnknown | routeTarget =>
              dsimp only at hq
              rw [Function.update_self] at hq
              cases hq
        · cases hp
    · cases hp
  · cases hp

/-- The log only grows. -/
theorem log_step {cfg : Config} {s t : Server} {action : Action}
    (h : Transition cfg s action t) : ∃ events,t.log=s.log++events := by
  cases h with
  | routeBroadcast | routeTarget | discard | enter | dropData | send | giveUp | writerTake =>
    exact ⟨_,rfl⟩
  | _ => exact ⟨[],(List.append_nil _).symm⟩

/-- What a run has read from a connection and routed from it to a client. -/
structure Tracked (trace : List (Server×Action)) (s : Server) (a b : ConnId) : Prop where
  /-- The counter of the connection counts its valid records. -/
  count : s.received a=(validReads trace a).length
  /-- The record in hand is the last one read. -/
  current : ∀ q,s.handlers a=.routing q →
    q.seq+1=s.received a ∧ (validReads trace a)[q.seq]?=some q.raw
  /-- The routed records were read from the connection. -/
  sent : ∀ p∈routesBetween trace a b,p.src=a ∧ p.seq<s.received a ∧
    (validReads trace a)[p.seq]?=some p.raw
  /-- The record in hand was read after all routed ones. -/
  behind : ∀ p∈routesBetween trace a b,∀ q,s.handlers a=.routing q → p.seq<q.seq
  /-- The records were routed in the order they were read. -/
  ordered : (routesBetween trace a b).Pairwise fun p q => p.seq<q.seq
  /-- The log lists the routed records. -/
  logged : routedLog s.log a b=routesBetween trace a b
  /-- At most one record waits between selection and queue. -/
  single : (pendingTo (s.handlers a) a b).length≤1

/-- Every run is tracked. -/
theorem tracked_run {cfg : Config} {key : List UInt8} {trace : List (Server×Action)}
    {last : Server} (run : ServerRun cfg key trace last) (a b : ConnId) :
    Tracked trace last a b := by
  induction run with
  | nil =>
    refine ⟨rfl,?_,?_,?_,List.Pairwise.nil,rfl,Nat.zero_le _⟩
    · intro q hq
      cases hq
    · intro p hp
      cases hp
    · intro p hp
      cases hp
  | @snoc trace s t action run henabled ih =>
    have hI : Delivering s := run.invariant (delivering_newServer key) delivering_step
    have hI' := delivering_step s action t hI henabled
    have h := step_transition henabled
    obtain ⟨hcount,hcurrent,hsent,hbehind,hordered,hlogged,hsingle⟩ := ih
    have hlog := routedLog_step hI h a b
    have extend : ∀ {i : ℕ} {raw : Packet} {more : List Packet},
        (validReads trace a)[i]?=some raw → (validReads trace a++more)[i]?=some raw := by
      intro i raw more hi
      rw [List.getElem?_append_left (List.getElem?_eq_some_iff.mp hi).1,hi]
    have hpending : (pendingTo (t.handlers a) a b).length≤1 := by
      obtain ⟨events,hevents⟩ := log_step h
      have hlength := congrArg List.length hlog
      rw [hI.handover.conserved a b,hI'.handover.conserved a b,hevents,endings_append] at hlength
      simp only [List.length_append,List.length_map] at hlength
      cases hroutes : routesTo s action a b with
      | nil =>
        rw [hroutes] at hlength
        simp only [List.length_nil] at hlength
        omega
      | cons p rest =>
        obtain ⟨honly,hpc,_⟩ := routing_step h
          (show p∈routesTo s action a b by rw [hroutes]; exact List.mem_cons_self)
        rw [honly,hpc] at hlength
        simp only [pendingTo,todoOf,List.filterMap_nil,List.length_nil,List.length_singleton]
          at hlength ⊢
        omega
    refine ⟨?_,?_,?_,?_,?_,?_,hpending⟩
    · rw [validReads_snoc,List.length_append]
      rcases reading_step h a with ⟨hnone,hreceived,_⟩ | ⟨raw,hone,hreceived,_⟩
      · rw [hnone,hreceived,hcount]
        rfl
      · rw [hone,hreceived,hcount]
        rfl
    · intro q hq
      rw [validReads_snoc]
      rcases reading_step h a with ⟨_,hreceived,hback⟩ | ⟨raw,hone,hreceived,_,hpc⟩
      · rw [hreceived]
        exact ⟨(hcurrent q (hback q hq)).1,extend (hcurrent q (hback q hq)).2⟩
      · rw [hpc] at hq
        cases hq
        refine ⟨hreceived.symm,?_⟩
        dsimp only
        rw [hone,hcount,List.getElem?_append_right (le_refl _),Nat.sub_self]
        rfl
    · intro p hp
      rw [routesBetween_snoc] at hp
      rw [validReads_snoc]
      have hgrow : s.received a≤t.received a := by
        rcases reading_step h a with ⟨_,hreceived,_⟩ | ⟨_,_,hreceived,_⟩ <;> omega
      rcases List.mem_append.mp hp with hp | hp
      · obtain ⟨hsrc,hlt,hraw⟩ := hsent p hp
        exact ⟨hsrc,by omega,extend hraw⟩
      · obtain ⟨_,hpc,_⟩ := routing_step h hp
        obtain ⟨hseq,hraw⟩ := hcurrent p hpc
        exact ⟨hI.wired.queues.origin a p hpc,by omega,extend hraw⟩
    · intro p hp q hq
      rw [routesBetween_snoc] at hp
      rcases List.mem_append.mp hp with hp | hp
      · rcases reading_step h a with ⟨_,_,hback⟩ | ⟨raw,_,_,_,hpc⟩
        · exact hbehind p hp q (hback q hq)
        · rw [hpc] at hq
          cases hq
          exact (hsent p hp).2.1
      · exact absurd hq ((routing_step h hp).2.2.2 q)
    · rw [routesBetween_snoc,List.pairwise_append]
      refine ⟨hordered,?_,?_⟩
      · cases hroutes : routesTo s action a b with
        | nil => exact List.Pairwise.nil
        | cons p rest =>
          obtain ⟨honly,_⟩ := routing_step h
            (show p∈routesTo s action a b by rw [hroutes]; exact List.mem_cons_self)
          rw [hroutes] at honly
          rw [honly]
          exact List.pairwise_singleton _ _
      · intro p hp q hq
        exact hbehind p hp q (routing_step h hq).2.1
    · rw [hlog,hlogged,routesBetween_snoc]

/-- The live records of a sender in a queue are those whose enqueue call put
them there. -/
theorem enteredFrom_eq (log : List Event) (a b : ConnId) :
    enteredFrom log a b=
      ((endings log a b).filter fun e => e.2=.entered).map Prod.fst := by
  induction log with
  | nil => rfl
  | cons event log ih =>
    have hcons := enteredLog_append [event] log b
    have hends := endings_append [event] log a b
    unfold enteredFrom at ih ⊢
    rw [List.singleton_append] at hcons hends
    rw [hcons,hends,List.filterMap_append,List.filter_append,List.map_append,ih]
    congr 1
    cases event with
    | entered dst entry =>
      by_cases hdst : dst=b
      · subst hdst
        cases hlive : live a dst (dst,entry) <;>
          simp [enteredLog,endings,ending,hlive]
      · have hlive : live a b (dst,entry)=none := if_neg fun h => hdst h.1
        simp [enteredLog,endings,ending,hlive,hdst]
    | routed dst entry => rfl
    | taken dst entry => rfl
    | dropped dst entry queued =>
      cases hlive : live a b (dst,entry) <;> simp [enteredLog,endings,ending,hlive]
    | discarded dst entry =>
      cases hlive : live a b (dst,entry) <;> simp [enteredLog,endings,ending,hlive]

/-- An ended call of the log is one of its events. -/
theorem mem_endings {log : List Event} {a b : ConnId} {call : Sent×Outcome}
    (h : call∈endings log a b) :
    ∃ entry,entry.sent=call.1 ∧
      ((call.2=.entered ∧ .entered b entry∈log) ∨
        (∃ queued,call.2=.dropped queued ∧ .dropped b entry queued∈log) ∨
        (call.2=.discarded ∧ .discarded b entry∈log)) := by
  obtain ⟨event,hmem,hevent⟩ := List.mem_filterMap.mp h
  rw [ending_eq] at hevent
  obtain ⟨⟨hand,outcome⟩,hended,hcall⟩ := Option.bind_eq_some_iff.mp hevent
  obtain ⟨p,hlive,rfl⟩ := Option.map_eq_some_iff.mp hcall
  unfold live at hlive
  split at hlive
  · rename_i hcond
    cases hlive
    refine ⟨hand.2,rfl,?_⟩
    cases event with
    | routed => cases hended
    | taken => cases hended
    | entered dst entry =>
      cases hended
      exact Or.inl ⟨rfl,hcond.1▸hmem⟩
    | dropped dst entry queued =>
      cases hended
      exact Or.inr (Or.inl ⟨queued,rfl,hcond.1▸hmem⟩)
    | discarded dst entry =>
      cases hended
      exact Or.inr (Or.inr ⟨rfl,hcond.1▸hmem⟩)
  · cases hlive

/-- The contract between a sender and a receiver along a run. -/
structure Delivered (trace : List (Server×Action)) (last : Server) (a b : ConnId) : Prop where
  /-- Every routed record is a valid record read from the sender. -/
  origin : ∀ p∈routesBetween trace a b,p.src=a ∧ (validReads trace a)[p.seq]?=some p.raw
  /-- The records are routed in the order they were read, none of them twice. -/
  ordered : (routesBetween trace a b).Pairwise fun p q => p.seq<q.seq
  /-- Their enqueue calls end in this order, except for one that may be under way. -/
  conserved : routesBetween trace a b=
    (endings last.log a b).map Prod.fst++pendingTo (last.handlers a) a b
  /-- At most one enqueue call is under way. -/
  single : (pendingTo (last.handlers a) a b).length≤1
  /-- A call puts its record into the queue, unless that is DATA and the queue is full. -/
  outcome : ∀ call∈endings last.log a b,call.2=.entered ∨
    call.2=.dropped defaultOutQueue ∧ (parseHeader call.1.raw).typ=waTypeData
  /-- Exactly the records of the successful calls entered the queue, in order. -/
  entered : enteredFrom last.log a b=
    ((endings last.log a b).filter fun e => e.2=.entered).map Prod.fst
  /-- The writer takes the entered records in order. -/
  fifo : enteredLog last.log b=takenLog last.log b++(last.conns b).out

/-- As long as a client is not being closed, the records that another connection
routes to it enter its queue in the order of the sender, each exactly once, and
only DATA records that find the queue full are left out. -/
theorem delivered {cfg : Config} {key : List UInt8} {trace : List (Server×Action)}
    {last : Server} (run : ServerRun cfg key trace last) (a b : ConnId)
    (hopen : (last.conns b).done=false) : Delivered trace last a b := by
  have hI : Delivering last := run.invariant (delivering_newServer key) delivering_step
  have htracked := tracked_run run a b
  refine ⟨fun p hp => ⟨(htracked.sent p hp).1,(htracked.sent p hp).2.2⟩,htracked.ordered,?_,
    htracked.single,?_,enteredFrom_eq last.log a b,hI.queueLog.fifo b⟩
  · rw [←htracked.logged]
    exact hI.handover.conserved a b
  · intro call hcall
    obtain ⟨entry,hentry,⟨hentered,_⟩ | ⟨queued,hdropped,hmem⟩ | ⟨_,hmem⟩⟩ := mem_endings hcall
    · exact Or.inl hentered
    · obtain ⟨hdata,hfull⟩ := hI.queueLog.dropped b entry queued hmem
      rw [hentry] at hdata
      exact Or.inr ⟨by rw [hdropped,hfull],hdata⟩
    · have hdone := (hI.queueLog.discarded b entry hmem).2
      rw [hopen] at hdone
      cases hdone

/-- Two clients join and the first sends DATA to the second. -/
theorem delivered_sample : ∃ trace last,ServerRun sampleConfig [] trace last ∧
    (last.conns 1).out=[⟨⟨samplePacket waTypeData 2,0,0⟩,false⟩] ∧
    Delivered trace last 0 1 := by
  obtain ⟨last,hexec,hview⟩ := Option.map_eq_some_iff.mp
    (show (exec (step sampleConfig) (newServer []) (joinActions 0 (sampleHello 1 65 1)++
        joinActions 1 (sampleHello 2 65 1)++[.read 0 (samplePacket waTypeData 2),
          .routePacket 0 [2,1] [],.enqueue 0])).map (fun s =>
            ((s.conns 1).out,(s.conns 1).done))=
      some ([⟨⟨samplePacket waTypeData 2,0,0⟩,false⟩],false) by rfl)
  obtain ⟨trace,run⟩ := Run.nil.exec hexec
  simp only [Prod.mk.injEq] at hview
  exact ⟨trace,last,run,hview.1,delivered run 0 1 hview.2⟩

end ChisLink.RelayServerOrder
