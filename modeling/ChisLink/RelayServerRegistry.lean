import ChisLink.RelayServerMutex

/-!
# Agreement of the room table with the open clients

A client that was accepted and is not closed yet should be the one registered
under its room and device id. The deferred removal deletes by room and device
id, without a look at which client is stored there, so agreement holds along a
run exactly as long as no deferred removal meets another client in its place.
-/

namespace ChisLink.RelayServerRegistry

open LabelledRuns RelayServerModel RelayServerStep RelayServerMutex

/-- The client stored under a room and a device id. -/
def registered (rooms : Rooms) (room : RoomName) (dev : UInt16) : Option ConnId :=
  (rooms.lookup room).bind fun r => r.clients.lookup dev

/-- A lookup in an existing room. -/
theorem registered_of_room {rooms : Rooms} {room : RoomName} {dev : UInt16} {r : Room}
    (h : rooms.lookup room=some r) :
    registered rooms room dev=r.clients.lookup dev := by
  simp only [registered,h,Option.bind_some]

/-- A lookup in a missing room. -/
theorem registered_of_noRoom {rooms : Rooms} {room : RoomName} {dev : UInt16}
    (h : rooms.lookup room=none) : registered rooms room dev=none := by
  simp only [registered,h,Option.bind_none]

/-- Replacing a room changes the lookups in that room only. -/
theorem registered_insert (rooms : Rooms) (room n : RoomName) (r : Room) (d : UInt16) :
    registered (rooms.insert room r) n d=
      if n=room then r.clients.lookup d else registered rooms n d := by
  unfold registered
  split
  · rename_i h
    subst h
    rw [AList.lookup_insert,Option.bind_some]
  · rename_i h
    rw [AList.lookup_insert_ne h]

/-- Erasing a room removes the lookups in that room only. -/
theorem registered_erase (rooms : Rooms) (room n : RoomName) (d : UInt16) :
    registered (rooms.erase room) n d=
      if n=room then none else registered rooms n d := by
  unfold registered
  split
  · rename_i h
    subst h
    rw [AList.lookup_erase,Option.bind_none]
  · rename_i h
    rw [AList.lookup_erase_ne h]

/-- A map without entries finds nothing. -/
theorem lookup_of_length_zero {κ β : Type} [DecidableEq κ] {m : AList fun _ : κ => β}
    (h : m.entries.length=0) (k : κ) : m.lookup k=none := by
  have hentries : m.entries=[] := List.length_eq_zero_iff.mp h
  rw [AList.lookup,hentries,List.dlookup_nil]

/-- Deleting a device removes exactly its own lookup. -/
theorem registered_deleteClient (rooms : Rooms) (room n : RoomName) (dev d : UInt16) :
    registered (deleteClient rooms room dev) n d=
      if n=room ∧ d=dev then none else registered rooms n d := by
  have hleft : ∀ m : AList fun _ : UInt16 => ConnId,(m.erase dev).lookup d=
      if d=dev then none else m.lookup d := by
    intro m
    split
    · rename_i h
      rw [h,AList.lookup_erase]
    · rename_i h
      rw [AList.lookup_erase_ne h]
  unfold deleteClient
  split
  · rename_i hroom
    by_cases h : n=room
    · subst h
      rw [registered_of_noRoom hroom,ite_self]
    · rw [if_neg (fun hand => h hand.1)]
  · rename_i r hroom
    dsimp only
    split
    · rename_i hempty
      rw [registered_erase]
      by_cases h : n=room
      · subst h
        have hnone := lookup_of_length_zero hempty d
        rw [hleft] at hnone
        rw [if_pos rfl,registered_of_room hroom]
        by_cases hd : d=dev
        · rw [if_pos ⟨rfl,hd⟩]
        · rw [if_neg hd] at hnone
          rw [if_neg (fun hand => hd hand.2),hnone]
      · rw [if_neg h,if_neg (fun hand => h hand.1)]
    · rw [registered_insert]
      by_cases h : n=room
      · subst h
        rw [if_pos rfl,registered_of_room hroom,hleft]
        simp only [true_and]
      · rw [if_neg h,if_neg (fun hand => h hand.1)]

/-- Storing an announcement registers nobody. -/
theorem storeAnnounce_clients (r : Room) (dev : UInt16) (packet : Sent) :
    (storeAnnounce r dev packet).clients=r.clients := by
  unfold storeAnnounce
  split <;> rfl

/-- Storing an announcement keeps all lookups. -/
theorem registered_storeAnnounce {rooms : Rooms} {room : RoomName} {r : Room}
    (h : rooms.lookup room=some r) (dev : UInt16) (packet : Sent) (n : RoomName)
    (d : UInt16) :
    registered (rooms.insert room (storeAnnounce r dev packet)) n d=
      registered rooms n d := by
  rw [registered_insert,storeAnnounce_clients]
  split
  · rename_i hn
    rw [hn,registered_of_room h]
  · rfl

/-- `addClient` succeeds on a free device id and registers exactly the new client. -/
theorem addClient_registered {cfg : Config} {rooms rooms' : Rooms} {room : RoomName}
    {roomAuth : List UInt8} {dev : UInt16} {c : ConnId}
    (h : addClient cfg rooms room roomAuth dev c=some rooms') (n : RoomName) (d : UInt16) :
    registered rooms room dev=none ∧
    registered rooms' n d=
      if n=room ∧ d=dev then some c else registered rooms n d := by
  have hput : ∀ m : AList fun _ : UInt16 => ConnId,(m.insert dev c).lookup d=
      if d=dev then some c else m.lookup d := by
    intro m
    split
    · rename_i hd
      rw [hd,AList.lookup_insert]
    · rename_i hd
      rw [AList.lookup_insert_ne hd]
  unfold addClient at h
  split at h
  · rename_i hroom
    split at h
    · cases h
    split at h
    · cases h
    split at h <;> cases h
    refine ⟨registered_of_noRoom hroom,?_⟩
    rw [registered_insert]
    by_cases hn : n=room
    · subst hn
      rw [if_pos rfl,hput,registered_of_noRoom hroom]
      simp only [true_and,AList.lookup_empty]
    · rw [if_neg hn,if_neg (fun hand => hn hand.1)]
  · rename_i r hroom
    split at h
    · cases h
    split at h
    · cases h
    split at h <;> cases h
    rename_i hfree
    refine ⟨?_,?_⟩
    · rw [registered_of_room hroom]
      exact AList.lookup_eq_none.mpr hfree
    · rw [registered_insert]
      by_cases hn : n=room
      · subst hn
        rw [if_pos rfl,hput,registered_of_room hroom]
        simp only [true_and]
      · rw [if_neg hn,if_neg (fun hand => hn hand.1)]

/-- The registered clients whose `closeClient` call belongs to a closing section. -/
def Covers (tail : Tail) (room : RoomName) (dev : UInt16) (x : ConnId) : Prop :=
  match tail with
  | .remove c => x=c
  | .kick n d => room=n ∧ dev=d
  | .deleteRoom n => room=n

/-- What a closing section has done and still has to do. -/
def Section (s : Server) (todo : List ConnId) (tail : Tail) : Prop :=
  match tail with
  | .remove c => (s.conns c).accepted=true ∧
      (todo=[c] ∨ todo=[] ∧ (s.conns c).closed=true)
  | .kick room dev => ∃ cl,registered s.rooms room dev=some cl ∧
      (todo=[cl] ∨ todo=[] ∧ (s.conns cl).closed=true)
  | .deleteRoom room => (∀ b∈todo,∃ d,registered s.rooms room d=some b) ∧
      ∀ d x,registered s.rooms room d=some x → x∈todo ∨ (s.conns x).closed=true

/-- The invariant of the room table. -/
structure Registry (s : Server) : Prop where
  /-- A handler before `addClient` has a fresh client. -/
  outside : ∀ c,phase (s.handlers c)=.outside →
    (s.conns c).accepted=false ∧ (s.conns c).closed=false
  /-- A handler after `addClient` has an accepted client. -/
  inside : ∀ c,phase (s.handlers c)=.inside → (s.conns c).accepted=true
  /-- Every client is stored under its own room and device id. -/
  stored : ∀ n d x,registered s.rooms n d=some x →
    (s.conns x).room=n ∧ (s.conns x).dev=d ∧ (s.conns x).accepted=true
  /-- Only the section in progress has closed clients in the table. -/
  closedCovered : ∀ n d x,registered s.rooms n d=some x → (s.conns x).closed=true →
    ∃ todo tail,s.mu=some (.closing todo tail) ∧ Covers tail n d x
  /-- The section in progress is on its way. -/
  progress : ∀ todo tail,s.mu=some (.closing todo tail) → Section s todo tail

/-- Every accepted client that is not closed is the registered one. -/
def Agreement (s : Server) : Prop :=
  ∀ x,(s.conns x).accepted=true → (s.conns x).closed=false →
    registered s.rooms (s.conns x).room (s.conns x).dev=some x

/-- The flags of a client that the room table depends on. -/
def regFlags (cl : Client) : Bool×Bool := (cl.accepted,cl.closed)

/-- The place of a client in the room table. -/
def regPlace (cl : Client) : RoomName×UInt16 := (cl.room,cl.dev)

/-- A step from the first state to the second one that the room table cannot see. -/
structure SameRegistry (s t : Server) : Prop where
  /-- The lookups agree. -/
  rooms : ∀ n d,registered t.rooms n d=registered s.rooms n d
  /-- The same closing section holds the mutex, or none in both. -/
  mu : ∀ todo tail,t.mu=some (.closing todo tail) ↔ s.mu=some (.closing todo tail)
  /-- The flags of every client agree. -/
  flags : ∀ x,regFlags (t.conns x)=regFlags (s.conns x)
  /-- The place of every accepted client agrees. -/
  place : ∀ x,(s.conns x).accepted=true → regPlace (t.conns x)=regPlace (s.conns x)
  /-- A handler keeps its phase or returns. -/
  handlers : ∀ c,phase (t.handlers c)≠.over → phase (t.handlers c)=phase (s.handlers c)

section Frame

variable {s t : Server}

theorem SameRegistry.accepted (h : SameRegistry s t) (x : ConnId) :
    (t.conns x).accepted=(s.conns x).accepted :=
  congrArg Prod.fst (h.flags x)

theorem SameRegistry.closed (h : SameRegistry s t) (x : ConnId) :
    (t.conns x).closed=(s.conns x).closed :=
  congrArg Prod.snd (h.flags x)

theorem SameRegistry.room (h : SameRegistry s t) {x : ConnId}
    (hx : (s.conns x).accepted=true) : (t.conns x).room=(s.conns x).room :=
  congrArg Prod.fst (h.place x hx)

theorem SameRegistry.dev (h : SameRegistry s t) {x : ConnId}
    (hx : (s.conns x).accepted=true) : (t.conns x).dev=(s.conns x).dev :=
  congrArg Prod.snd (h.place x hx)

/-- The progress of a section is seen through the shared view. -/
theorem SameRegistry.section_iff (h : SameRegistry s t) (todo : List ConnId) (tail : Tail) :
    Section t todo tail ↔ Section s todo tail := by
  cases tail <;> simp only [Section,h.rooms,h.accepted,h.closed]

/-- The invariant survives every step that the room table cannot see. -/
theorem Registry.frame (hI : Registry s) (h : SameRegistry s t) : Registry t where
  outside c hc := by
    have hs := h.handlers c (by rw [hc]; decide)
    rw [h.accepted,h.closed]
    exact hI.outside c (hs▸hc)
  inside c hc := by
    have hs := h.handlers c (by rw [hc]; decide)
    rw [h.accepted]
    exact hI.inside c (hs▸hc)
  stored n d x hx := by
    obtain ⟨hroom,hdev,hacc⟩ := hI.stored n d x (h.rooms n d▸hx)
    rw [h.room hacc,h.dev hacc,h.accepted]
    exact ⟨hroom,hdev,hacc⟩
  closedCovered n d x hx hclosed := by
    rw [h.closed] at hclosed
    obtain ⟨todo,tail,hmu,hcover⟩ := hI.closedCovered n d x (h.rooms n d▸hx) hclosed
    exact ⟨todo,tail,(h.mu todo tail).mpr hmu,hcover⟩
  progress todo tail hmu :=
    (h.section_iff todo tail).mpr (hI.progress todo tail ((h.mu todo tail).mp hmu))

/-- Agreement is the same before and after such a step. -/
theorem SameRegistry.agreement_iff (h : SameRegistry s t) : Agreement t ↔ Agreement s := by
  constructor
  · intro hA x hacc hclosed
    have hx := hA x (by rw [h.accepted,hacc]) (by rw [h.closed,hclosed])
    rwa [h.room hacc,h.dev hacc,h.rooms] at hx
  · intro hA x hacc hclosed
    rw [h.accepted] at hacc
    rw [h.closed] at hclosed
    rw [h.room hacc,h.dev hacc,h.rooms]
    exact hA x hacc hclosed

end Frame

/-- The actions that change what the room table speaks of. -/
def touchesRegistry : Action → Bool
  | .addClient _ => true
  | .removeClient _ => true
  | .kickClient _ _ => true
  | .deleteRoom _ _ => true
  | .closeOut => true
  | .closeSkip => true
  | .closeTail => true
  | _ => false

/-- A connection that ends before its client joined leaves the table alone. -/
theorem dropConn_sameRegistry (s : Server) (c : ConnId) (stats : ServerStats) :
    SameRegistry s (dropConn s c stats) where
  rooms _ _ := rfl
  mu _ _ := Iff.rfl
  flags x := update_field regFlags (by rfl) x
  place x _ := update_field regPlace (by rfl) x
  handlers d hd := by
    unfold dropConn at hd ⊢
    dsimp only at hd ⊢
    by_cases hdc : d=c
    · rw [hdc,Function.update_self] at hd
      exact absurd rfl hd
    · rw [Function.update_of_ne hdc]

/-- All other actions leave the view of the room table alone. -/
theorem transition_sameRegistry {cfg : Config} {s t : Server} {action : Action}
    (hmutex : Owners s) (hI : Registry s) (h : Transition cfg s action t)
    (hquiet : touchesRegistry action=false) : SameRegistry s t := by
  have handler : ∀ {c pc},phase pc=phase (s.handlers c) →
      ∀ d,phase (Function.update s.handlers c pc d)≠.over →
        phase (Function.update s.handlers c pc d)=phase (s.handlers d) :=
    fun hpc d _ => update_field phase hpc d
  have flags : ∀ {b cl},regFlags cl=regFlags (s.conns b) →
      ∀ x,regFlags (Function.update s.conns b cl x)=regFlags (s.conns x) :=
    fun hcl x => update_field regFlags hcl x
  have place : ∀ {b cl},regPlace cl=regPlace (s.conns b) → ∀ x,(s.conns x).accepted=true →
      regPlace (Function.update s.conns b cl x)=regPlace (s.conns x) :=
    fun hcl x _ => update_field regPlace hcl x
  have idle : ∀ {mu : Option Critical},(∀ todo tail,mu≠some (.closing todo tail)) →
      (∀ todo tail,s.mu≠some (.closing todo tail)) →
      ∀ todo tail,mu=some (.closing todo tail) ↔ s.mu=some (.closing todo tail) :=
    fun hmu hs todo tail => iff_of_false (hmu todo tail) (hs todo tail)
  cases h with
  | drop => exact dropConn_sameRegistry s _ _
  | skip | ignore | rotateKey | writerSent | writerEnd =>
    exact ⟨fun _ _ => rfl,fun _ _ => Iff.rfl,fun _ => rfl,fun _ _ => rfl,fun _ _ => rfl⟩
  | accept hpc | start hpc | read hpc | readError hpc | routeNoRoom hpc | routeUnknown hpc
    | routeTarget hpc | discard hpc | dropData hpc | finishTarget hpc | leave hpc =>
    exact ⟨fun _ _ => rfl,fun _ _ => Iff.rfl,fun _ => rfl,fun _ _ => rfl,
      handler (by rw [hpc]; rfl)⟩
  | enter hpc | block hpc | send hpc | giveUp hpc =>
    exact ⟨fun _ _ => rfl,fun _ _ => Iff.rfl,flags rfl,place rfl,handler (by rw [hpc]; rfl)⟩
  | closeDone | writerTake | writerError =>
    exact ⟨fun _ _ => rfl,fun _ _ => Iff.rfl,flags rfl,place rfl,fun _ _ => rfl⟩
  | @hello c _ _ hpc =>
    obtain ⟨hacc,hclosed⟩ := hI.outside c (by rw [hpc]; rfl)
    refine ⟨fun _ _ => rfl,fun _ _ => Iff.rfl,flags ?_,?_,handler (by rw [hpc]; rfl)⟩
    · simp only [regFlags,newClient,hacc,hclosed]
    · intro x hx
      have hxc : x≠c := fun h => by rw [h,hacc] at hx; cases hx
      dsimp only
      rw [Function.update_of_ne hxc]
  | @routeBroadcast c _ _ packet r hpc hmu hroom =>
    refine ⟨registered_storeAnnounce hroom _ _,idle ?_ ?_,fun _ => rfl,fun _ _ => rfl,
      handler (by rw [hpc]; rfl)⟩
    · intro todo tail h
      cases h
    · intro todo tail h
      rw [hmu] at h
      cases h
  | finishBroadcast hpc =>
    refine ⟨fun _ _ => rfl,idle ?_ ?_,fun _ => rfl,fun _ _ => rfl,handler (by rw [hpc]; rfl)⟩
    · intro todo tail h
      cases h
    · intro todo tail h
      rw [hmutex.broadcasting hpc] at h
      cases h
  | _ => cases hquiet

/-- The empty server satisfies the invariant. -/
theorem registry_newServer (key : List UInt8) : Registry (newServer key) where
  outside _ _ := ⟨rfl,rfl⟩
  inside c h := by cases h
  stored n d x h := by
    simp [newServer,registered] at h
  closedCovered n d x h := by
    simp [newServer,registered] at h
  progress todo tail h := by cases h

section Sections

variable {s : Server} {todo : List ConnId} {tail : Tail}

/-- A client that a closing section still has to close is registered under its
own key, or is the one whose handler removes it. -/
theorem Registry.todo_covered (hI : Registry s) (hmu : s.mu=some (.closing todo tail))
    {b : ConnId} (hb : b∈todo) : (s.conns b).accepted=true ∧
      Covers tail (s.conns b).room (s.conns b).dev b := by
  have hsection := hI.progress todo tail hmu
  cases tail with
  | remove c =>
    obtain ⟨hacc,rfl | ⟨rfl,_⟩⟩ := hsection
    · rw [List.mem_singleton.mp hb]
      exact ⟨hacc,rfl⟩
    · cases hb
  | kick room dev =>
    obtain ⟨cl,hcl,rfl | ⟨rfl,_⟩⟩ := hsection
    · rw [List.mem_singleton.mp hb]
      obtain ⟨hroom,hdev,hacc⟩ := hI.stored room dev cl hcl
      exact ⟨hacc,hroom,hdev⟩
    · cases hb
  | deleteRoom room =>
    obtain ⟨d,hd⟩ := hsection.1 b hb
    obtain ⟨hroom,_,hacc⟩ := hI.stored room d b hd
    exact ⟨hacc,hroom⟩

/-- Every registered client that an ending section covers has been closed by it. -/
theorem Registry.covered_closed (hI : Registry s) (hmu : s.mu=some (.closing [] tail))
    {n : RoomName} {d : UInt16} {x : ConnId} (hx : registered s.rooms n d=some x)
    (hcover : Covers tail n d x) : (s.conns x).closed=true := by
  have hsection := hI.progress [] tail hmu
  cases tail with
  | remove c =>
    obtain ⟨_,h | ⟨_,hclosed⟩⟩ := hsection
    · cases h
    · rw [show x=c from hcover]
      exact hclosed
  | kick room dev =>
    obtain ⟨cl,hcl,h | ⟨_,hclosed⟩⟩ := hsection
    · cases h
    · rw [hcover.1,hcover.2,hcl] at hx
      cases hx
      exact hclosed
  | deleteRoom room =>
    rw [show n=room from hcover] at hx
    rcases hsection.2 d x hx with h | hclosed
    · cases h
    · exact hclosed

/-- A closing section may start when the mutex is free. -/
theorem Registry.takeMu (hI : Registry s) (hfree : s.mu=none) {handlers : ConnId → HandlerPc}
    (hphase : ∀ c,phase (handlers c)=phase (s.handlers c)) (hsection : Section s todo tail) :
    Registry { s with mu := some (.closing todo tail), handlers := handlers } where
  outside c hc := hI.outside c (hphase c▸hc)
  inside c hc := hI.inside c (hphase c▸hc)
  stored := hI.stored
  closedCovered n d x hx hclosed := by
    obtain ⟨_,_,hmu,_⟩ := hI.closedCovered n d x hx hclosed
    rw [hfree] at hmu
    cases hmu
  progress todo' tail' hmu := by
    cases hmu
    exact hsection

/-- A closing section moves on when the next client is closed. -/
theorem Registry.advance (hI : Registry s) {b : ConnId}
    (hmu : s.mu=some (.closing (b::todo) tail)) (cl : Client)
    (hplace : regPlace cl=regPlace (s.conns b)) (hacc : cl.accepted=(s.conns b).accepted)
    (hclosed : cl.closed=true) :
    Registry { s with
      mu := some (.closing todo tail)
      conns := Function.update s.conns b cl } := by
  obtain ⟨hbacc,hbcover⟩ := hI.todo_covered hmu List.mem_cons_self
  have accepted : ∀ x,(Function.update s.conns b cl x).accepted=(s.conns x).accepted :=
    update_field Client.accepted hacc
  have place : ∀ x,regPlace (Function.update s.conns b cl x)=regPlace (s.conns x) :=
    update_field regPlace hplace
  have closed : ∀ x,(s.conns x).closed=true → (Function.update s.conns b cl x).closed=true := by
    intro x hx
    by_cases hxb : x=b
    · rw [hxb,Function.update_self,hclosed]
    · rw [Function.update_of_ne hxb,hx]
  have closedSelf : (Function.update s.conns b cl b).closed=true := by
    rw [Function.update_self,hclosed]
  refine ⟨?_,?_,?_,?_,?_⟩
  · intro c hc
    have hcb : c≠b := by
      intro h
      rw [←h,(hI.outside c hc).1] at hbacc
      cases hbacc
    dsimp only
    rw [Function.update_of_ne hcb]
    exact hI.outside c hc
  · intro c hc
    exact (accepted c).trans (hI.inside c hc)
  · intro n d x hx
    obtain ⟨hroom,hdev,hxacc⟩ := hI.stored n d x hx
    exact ⟨(congrArg Prod.fst (place x)).trans hroom,
      (congrArg Prod.snd (place x)).trans hdev,(accepted x).trans hxacc⟩
  · intro n d x hx hxclosed
    by_cases hxb : x=b
    · obtain ⟨hroom,hdev,_⟩ := hI.stored n d x hx
      rw [←hxb,hroom,hdev] at hbcover
      exact ⟨todo,tail,rfl,hbcover⟩
    · dsimp only at hxclosed
      rw [Function.update_of_ne hxb] at hxclosed
      obtain ⟨_,_,hmu',hcover⟩ := hI.closedCovered n d x hx hxclosed
      rw [hmu] at hmu'
      cases hmu'
      exact ⟨todo,tail,rfl,hcover⟩
  · intro todo' tail' hmu'
    cases hmu'
    have hsection := hI.progress _ _ hmu
    cases tail with
    | remove c =>
      obtain ⟨hcacc,h | ⟨h,_⟩⟩ := hsection
      · cases h
        exact ⟨(accepted _).trans hcacc,Or.inr ⟨rfl,closedSelf⟩⟩
      · cases h
    | kick room dev =>
      obtain ⟨x,hx,h | ⟨h,_⟩⟩ := hsection
      · cases h
        exact ⟨_,hx,Or.inr ⟨rfl,closedSelf⟩⟩
      · cases h
    | deleteRoom room =>
      refine ⟨fun x hx => hsection.1 x (List.mem_cons_of_mem b hx),?_⟩
      intro d x hx
      rcases hsection.2 d x hx with h | h
      · rcases List.mem_cons.mp h with rfl | h
        · exact Or.inr closedSelf
        · exact Or.inl h
      · exact Or.inr (closed x h)

/-- A closing section ends with the removal of every client it covers. -/
theorem Registry.release (hI : Registry s) (hmu : s.mu=some (.closing [] tail)) {t : Server}
    (hfree : t.mu=none)
    (hrooms : ∀ n d x,registered t.rooms n d=some x → registered s.rooms n d=some x)
    (hgone : ∀ n d x,registered t.rooms n d=some x → ¬Covers tail n d x)
    (hflags : ∀ x,regFlags (t.conns x)=regFlags (s.conns x))
    (hplace : ∀ x,regPlace (t.conns x)=regPlace (s.conns x))
    (hphase : ∀ c,phase (t.handlers c)≠.over → phase (t.handlers c)=phase (s.handlers c)) :
    Registry t := by
  have accepted := fun x => congrArg Prod.fst (hflags x)
  have closed := fun x => congrArg Prod.snd (hflags x)
  refine ⟨?_,?_,?_,?_,?_⟩
  · intro c hc
    have hs := hphase c (by rw [hc]; decide)
    obtain ⟨hacc,hclosed⟩ := hI.outside c (hs▸hc)
    exact ⟨(accepted c).trans hacc,(closed c).trans hclosed⟩
  · intro c hc
    have hs := hphase c (by rw [hc]; decide)
    exact (accepted c).trans (hI.inside c (hs▸hc))
  · intro n d x hx
    obtain ⟨hroom,hdev,hacc⟩ := hI.stored n d x (hrooms n d x hx)
    exact ⟨(congrArg Prod.fst (hplace x)).trans hroom,
      (congrArg Prod.snd (hplace x)).trans hdev,(accepted x).trans hacc⟩
  · intro n d x hx hclosed
    obtain ⟨_,_,hmu',hcover⟩ := hI.closedCovered n d x (hrooms n d x hx)
      ((closed x).symm.trans hclosed)
    rw [hmu] at hmu'
    cases hmu'
    exact absurd hcover (hgone n d x hx)
  · intro todo' tail' hmu'
    rw [hfree] at hmu'
    cases hmu'

end Sections

/-- Every client of a room is in the list that `deleteRoom` closes. -/
theorem mem_filterMap_lookup {r : Room} {order : List UInt16}
    (horder : order.Perm r.clients.keys) (x : ConnId) :
    x∈order.filterMap r.clients.lookup ↔ ∃ d,r.clients.lookup d=some x := by
  rw [List.mem_filterMap]
  constructor
  · rintro ⟨d,_,hd⟩
    exact ⟨d,hd⟩
  · rintro ⟨d,hd⟩
    have hmem : d∈r.clients := AList.lookup_isSome.mp (by rw [hd]; rfl)
    exact ⟨d,horder.mem_iff.mpr (AList.mem_keys.mp hmem),hd⟩

/-- One step preserves the invariant of the room table. -/
theorem registry_step {cfg : Config} {s t : Server} {action : Action} (hmutex : Owners s)
    (hI : Registry s) (h : Transition cfg s action t) : Registry t := by
  have hstep := h
  cases h with
  | skip | ignore => exact hI
  | drop => exact hI.frame (dropConn_sameRegistry s _ _)
  | @join c rooms hpc hmu hadd =>
    obtain ⟨hacc,hclosed⟩ := hI.outside c (by rw [hpc]; rfl)
    have hput := fun n d => (addClient_registered hadd n d).2
    have flags : ∀ x,x≠c → Function.update s.conns c
        { s.conns c with accepted := true } x=s.conns x :=
      fun x hx => Function.update_of_ne hx _ _
    refine ⟨?_,?_,?_,?_,?_⟩
    · intro e he
      have hec : e≠c := by
        rintro rfl
        dsimp only at he
        rw [Function.update_self] at he
        cases he
      dsimp only at he ⊢
      rw [Function.update_of_ne hec] at he
      rw [flags e hec]
      exact hI.outside e he
    · intro e he
      dsimp only at he ⊢
      by_cases hec : e=c
      · rw [hec,Function.update_self]
      · rw [Function.update_of_ne hec] at he
        rw [flags e hec]
        exact hI.inside e he
    · intro n d x hx
      dsimp only at hx ⊢
      rw [hput] at hx
      split at hx
      · rename_i hnd
        cases hx
        rw [Function.update_self]
        exact ⟨hnd.1.symm,hnd.2.symm,rfl⟩
      · obtain ⟨hroom,hdev,hxacc⟩ := hI.stored n d x hx
        have hxc : x≠c := fun h => by rw [h,hacc] at hxacc; cases hxacc
        rw [flags x hxc]
        exact ⟨hroom,hdev,hxacc⟩
    · intro n d x hx hxclosed
      dsimp only at hx hxclosed
      have hxc : x≠c := by
        rintro rfl
        rw [Function.update_self,hclosed] at hxclosed
        cases hxclosed
      rw [hput] at hx
      split at hx
      · cases hx
        exact absurd rfl hxc
      · rw [flags x hxc] at hxclosed
        obtain ⟨_,_,hmu',_⟩ := hI.closedCovered n d x hx hxclosed
        rw [hmu] at hmu'
        cases hmu'
    · intro todo tail hmu'
      rw [show s.mu=none from hmu] at hmu'
      cases hmu'
  | @removeClient c hpc hmu =>
    refine hI.takeMu hmu (update_field phase (by rw [hpc]; rfl)) ⟨?_,Or.inl rfl⟩
    exact hI.inside c (by rw [hpc]; rfl)
  | @kickClient cl room dev r hmu hroom hdev =>
    refine hI.takeMu hmu (fun _ => rfl) ⟨cl,?_,Or.inl rfl⟩
    rw [registered_of_room hroom,hdev]
  | @deleteRoom room order r hmu hroom horder =>
    refine hI.takeMu hmu (fun _ => rfl) ⟨?_,?_⟩
    · intro b hb
      simpa only [registered_of_room hroom] using (mem_filterMap_lookup horder b).mp hb
    · intro d x hx
      rw [registered_of_room hroom] at hx
      exact Or.inl ((mem_filterMap_lookup horder x).mpr ⟨d,hx⟩)
  | @closeOut b todo tail hmu => exact hI.advance hmu _ rfl rfl rfl
  | @closeSkip b todo tail hmu _ hclosed =>
    have hkeep := hI.advance hmu (s.conns b) rfl rfl hclosed
    rwa [Function.update_eq_self] at hkeep
  | @tailRemove c hmu =>
    refine hI.release hmu rfl ?_ ?_ (update_field regFlags (by rfl))
      (update_field regPlace (by rfl)) ?_
    · intro n d x hx
      dsimp only [disconnectClientLocked] at hx
      rw [registered_deleteClient] at hx
      split at hx
      · cases hx
      · exact hx
    · intro n d x hx hcover
      dsimp only [disconnectClientLocked] at hx
      rw [registered_deleteClient] at hx
      split at hx
      · cases hx
      · rename_i hne
        obtain ⟨hroom,hdev,_⟩ := hI.stored n d x hx
        rw [show x=c from hcover] at hroom hdev
        exact hne ⟨hroom.symm,hdev.symm⟩
    · intro e he
      dsimp only at he ⊢
      by_cases hec : e=c
      · rw [hec,Function.update_self] at he
        exact absurd rfl he
      · rw [Function.update_of_ne hec]
  | @tailKick room dev hmu =>
    refine hI.release hmu rfl ?_ ?_ (fun _ => rfl) (fun _ => rfl) (fun _ _ => rfl)
    · intro n d x hx
      dsimp only at hx
      rw [registered_deleteClient] at hx
      split at hx
      · cases hx
      · exact hx
    · intro n d x hx hcover
      dsimp only at hx
      rw [registered_deleteClient,if_pos ⟨hcover.1,hcover.2⟩] at hx
      cases hx
  | @tailDelete room hmu =>
    refine hI.release hmu rfl ?_ ?_ (fun _ => rfl) (fun _ => rfl) (fun _ _ => rfl)
    · intro n d x hx
      dsimp only at hx
      rw [registered_erase] at hx
      split at hx
      · cases hx
      · exact hx
    · intro n d x hx hcover
      dsimp only at hx
      rw [registered_erase,if_pos (show n=room from hcover)] at hx
      cases hx
  | _ => exact hI.frame (transition_sameRegistry hmutex hI hstep rfl)

/-- A deferred removal that edits the table finds its own client there, or nobody. -/
def RemovesOwn (s : Server) (action : Action) : Prop :=
  ∀ c,action=.closeTail → s.mu=some (.closing [] (.remove c)) →
    ∀ x,registered s.rooms (s.conns c).room (s.conns c).dev=some x → x=c

/-- What the run lemmas below carry along. -/
def Sound (s : Server) : Prop := Owners s ∧ Registry s

/-- A new server is sound. -/
theorem sound_newServer (key : List UInt8) : Sound (newServer key) :=
  ⟨owners_newServer key,registry_newServer key⟩

/-- One step preserves soundness. -/
theorem sound_step {cfg : Config} (s : Server) (action : Action) (t : Server) (hI : Sound s)
    (h : step cfg s action=some t) : Sound t :=
  ⟨owners_step hI.1 (step_transition h),registry_step hI.1 hI.2 (step_transition h)⟩

/-- Agreement is lost exactly when a deferred removal finds another client. -/
theorem tailRemove_agreement_iff {s : Server} {c : ConnId} {handlers : ConnId → HandlerPc}
    {cl : Client} (hI : Registry s) (hA : Agreement s)
    (hmu : s.mu=some (.closing [] (.remove c)))
    (hflags : regFlags cl=regFlags (s.conns c)) (hplace : regPlace cl=regPlace (s.conns c)) :
    Agreement { s with
      mu := none
      rooms := disconnectClientLocked s c
      handlers := handlers
      conns := Function.update s.conns c cl } ↔ RemovesOwn s .closeTail := by
  have flags : ∀ x,regFlags (Function.update s.conns c cl x)=regFlags (s.conns x) :=
    update_field regFlags hflags
  have place : ∀ x,regPlace (Function.update s.conns c cl x)=regPlace (s.conns x) :=
    update_field regPlace hplace
  have accepted := fun x => congrArg Prod.fst (flags x)
  have closed := fun x => congrArg Prod.snd (flags x)
  have room := fun x => congrArg Prod.fst (place x)
  have dev := fun x => congrArg Prod.snd (place x)
  dsimp only [regFlags,regPlace] at accepted closed room dev
  simp only [Agreement,accepted,closed,room,dev,disconnectClientLocked,registered_deleteClient]
  constructor
  · intro hA' e _ hmu' x hx
    rw [hmu] at hmu'
    cases hmu'
    obtain ⟨hroom,hdev,hacc⟩ := hI.stored _ _ _ hx
    cases hclosed : (s.conns x).closed with
    | true =>
      obtain ⟨_,_,hmu',hcover⟩ := hI.closedCovered _ _ _ hx hclosed
      rw [hmu] at hmu'
      cases hmu'
      exact hcover
    | false =>
      have hkept := hA' x hacc hclosed
      rw [if_pos ⟨hroom,hdev⟩] at hkept
      cases hkept
  · intro hown x hacc hclosed
    have hx := hA x hacc hclosed
    rw [if_neg,hx]
    rintro ⟨hroom,hdev⟩
    rw [hroom,hdev] at hx
    have hxc := hown c rfl hmu x hx
    rw [hxc,hI.covered_closed hmu (hxc▸hx) rfl] at hclosed
    cases hclosed

/-- One step from an agreeing state keeps agreement exactly when it is no
removal that finds another client in the place of its own. -/
theorem agreement_step {cfg : Config} (s : Server) (action : Action) (t : Server)
    (hI : Sound s) (hA : Agreement s) (h : step cfg s action=some t) :
    Agreement t ↔ RemovesOwn s action := by
  have htransition := step_transition h
  have hstep := htransition
  have other : action≠.closeTail → RemovesOwn s action := fun hne c heq => absurd heq hne
  cases htransition with
  | skip hidle =>
    refine iff_of_true hA (other ?_)
    rintro rfl
    cases hidle
  | ignore => exact iff_of_true hA (other (by simp))
  | drop hdrop =>
    refine iff_of_true ((dropConn_sameRegistry s _ _).agreement_iff.mpr hA) (other ?_)
    rintro rfl
    cases hdrop
  | @join c rooms hpc hmu hadd =>
    refine iff_of_true ?_ (other (by simp))
    intro x hacc hclosed
    dsimp only at hacc hclosed ⊢
    rw [(addClient_registered hadd _ _).2]
    by_cases hxc : x=c
    · rw [hxc,Function.update_self]
      exact if_pos ⟨rfl,rfl⟩
    · rw [Function.update_of_ne hxc] at hacc hclosed ⊢
      have hx := hA x hacc hclosed
      rw [if_neg,hx]
      rintro ⟨hroom,hdev⟩
      rw [hroom,hdev,(addClient_registered hadd (s.conns c).room (s.conns c).dev).1] at hx
      cases hx
  | removeClient | kickClient | deleteRoom => exact iff_of_true hA (other (by simp))
  | @closeOut b =>
    refine iff_of_true ?_ (other (by simp))
    intro x hacc hclosed
    dsimp only at hacc hclosed ⊢
    by_cases hxb : x=b
    · rw [hxb,Function.update_self] at hclosed
      cases hclosed
    · rw [Function.update_of_ne hxb] at hacc hclosed ⊢
      exact hA x hacc hclosed
  | closeSkip => exact iff_of_true hA (other (by simp))
  | @tailRemove c hmu => exact tailRemove_agreement_iff hI.2 hA hmu rfl rfl
  | @tailKick room dev hmu =>
    refine iff_of_true ?_ ?_
    · intro x hacc hclosed
      have hx := hA x hacc hclosed
      dsimp only at hclosed ⊢
      rw [registered_deleteClient,if_neg,hx]
      rintro hcover
      rw [hI.2.covered_closed hmu hx hcover] at hclosed
      cases hclosed
    · intro c _ hmu'
      rw [hmu] at hmu'
      cases hmu'
  | @tailDelete room hmu =>
    refine iff_of_true ?_ ?_
    · intro x hacc hclosed
      have hx := hA x hacc hclosed
      dsimp only at hclosed ⊢
      rw [registered_erase,if_neg,hx]
      intro hcover
      rw [hI.2.covered_closed hmu hx hcover] at hclosed
      cases hclosed
    · intro c _ hmu'
      rw [hmu] at hmu'
      cases hmu'
  | _ =>
    exact iff_of_true ((transition_sameRegistry hI.1 hI.2 hstep rfl).agreement_iff.mpr hA)
      (other (by simp))

/-- In a run of the server the room table agrees with the open clients in every
state exactly when every deferred removal finds its own client or nobody. -/
theorem agreement_always_iff {cfg : Config} {key : List UInt8} {trace : List (Server×Action)}
    {last : Server} (run : ServerRun cfg key trace last) :
    Always Agreement trace last ↔ EveryStep RemovesOwn trace :=
  run.always_iff_everyStep (sound_newServer key) sound_step
    (fun x hacc => by simp [newServer,newClient] at hacc) agreement_step

/-- A client hello for a device id below 256 in the room named by one letter. -/
def sampleHello (dev room auth : UInt8) : List UInt8 :=
  helloMagic++[1,dev,0]++room::List.replicate 15 0++List.replicate 32 0++
    List.replicate 32 auth

/-- Limits for a small server whose keyed hash is constant. -/
def sampleConfig : Config where
  maxRooms := 4
  maxClients := 8
  hmacSha256 _ _ := List.replicate 32 0

/-- The actions with which a connection joins. -/
def joinActions (c : ConnId) (clientHello : List UInt8) : List Action :=
  [.accept c [],.hello c clientHello,.addClient c,.start c]

/-- A record of a type for a device id below 256. -/
def samplePacket (typ target : UInt8) : Packet where
  bytes := [0x43,0x4C,0x57,0x41,22,typ,0,0,0,0,0,0,target,0]++List.replicate 98 0
  length_eq := by rfl

/-- A client is kicked, another one takes its device id, and then the deferred
removal of the first runs. -/
def staleRemoval : List Action :=
  joinActions 0 (sampleHello 7 65 1)++
  [.kickClient [65] 7,.closeDone,.closeOut,.closeTail]++
  joinActions 1 (sampleHello 7 65 1)++
  [.readError 0,.leave 0,.removeClient 0,.closeSkip,.closeTail]

/-- The second client is open and accepted but in no room. -/
theorem staleRemoval_run : ∃ trace last,ServerRun sampleConfig [] trace last ∧
    ¬Agreement last := by
  obtain ⟨last,hexec,hview⟩ := Option.map_eq_some_iff.mp
    (show (exec (step sampleConfig) (newServer []) staleRemoval).map (fun s =>
        ((s.conns 1).accepted,(s.conns 1).closed,
          registered s.rooms (s.conns 1).room (s.conns 1).dev))=some (true,false,none) by rfl)
  obtain ⟨trace,run⟩ := Run.nil.exec hexec
  refine ⟨trace,last,run,fun hA => ?_⟩
  simp only [Prod.mk.injEq] at hview
  have h := hA 1 hview.1 hview.2.1
  rw [hview.2.2] at h
  cases h

/-- A deferred removal can unregister a client that joined after a kick. -/
theorem agreement_fails : ¬∀ cfg key trace last,ServerRun cfg key trace last →
    Agreement last := by
  intro hall
  obtain ⟨trace,last,run,hbad⟩ := staleRemoval_run
  exact hbad (hall sampleConfig [] trace last run)

/-- In that run some deferred removal finds a client other than its own. -/
theorem agreement_always_iff_staleRemoval : ∃ trace last,
    ServerRun sampleConfig [] trace last ∧ ¬EveryStep RemovesOwn trace := by
  obtain ⟨trace,last,run,hbad⟩ := staleRemoval_run
  exact ⟨trace,last,run,fun hall => hbad ((agreement_always_iff run).mpr hall).2⟩

end ChisLink.RelayServerRegistry
