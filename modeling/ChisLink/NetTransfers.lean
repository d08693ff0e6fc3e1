import ChisLink.ClientBoundary

/-!
# Transfers of the network client

A transfer of many bytes is a loop of sends that may be short. A send that would block is
followed by polls out of a budget, which only progress fills again. The calls of a run are
recorded one after the other with what they were given and what they returned.
-/

namespace ChisLink.NetTransfers

open ClientBoundary ClientExchange DriverPrograms NetClient WireProtocol

variable {δ : Type}

/-- A call of a transfer. -/
inductive NetEvent where
  /-- A send of some bytes, and the number that was accepted. -/
  | send (passed : List UInt8) (reply : Except ℤ ℕ)
  /-- A receive, and the bytes. -/
  | recv (reply : Except ℤ (List UInt8))
  /-- A poll, and the flags. -/
  | poll (reply : Except ℤ UInt32)

/-- The calls on a handle that lead from one state of the link to another. -/
inductive Calls (net : Peer δ) (handle : UInt16) (capacity : UInt32) :
    Link δ → List NetEvent → Link δ → Prop where
  /-- No call. -/
  | nil (s : Link δ) : Calls net handle capacity s [] s
  /-- A send of a chunk, and the calls behind it. -/
  | send {s t u : Link δ} {passed : List UInt8} {reply : Except ℤ ℕ} {events : List NetEvent} :
      passed.length≤ clpNetSendFrameMaxData → clNetSend net handle passed s=(some reply,t) →
      Calls net handle capacity t events u →
      Calls net handle capacity s (.send passed reply::events) u
  /-- A receive, and the calls behind it. -/
  | recv {s t u : Link δ} {reply : Except ℤ (List UInt8)} {events : List NetEvent} :
      clNetRecv net handle capacity s=(some reply,t) → Calls net handle capacity t events u →
      Calls net handle capacity s (.recv reply::events) u
  /-- A poll, and the calls behind it. -/
  | poll {s t u : Link δ} {reply : Except ℤ UInt32} {events : List NetEvent} :
      clNetPoll net handle s=(some reply,t) → Calls net handle capacity t events u →
      Calls net handle capacity s (.poll reply::events) u

/-- The bytes that the other side accepted, in the order of the calls. -/
def accepted : List NetEvent → List UInt8
  | [] => []
  | .send passed (.ok written)::events => passed.take written++accepted events
  | .send _ (.error _)::events => accepted events
  | .recv _::events => accepted events
  | .poll _::events => accepted events

/-- The sends that the other side answers are short or complete: no more is accepted than was
passed. -/
def Short (events : List NetEvent) : Prop :=
  ∀ passed written,NetEvent.send passed (.ok written)∈events → written≤passed.length

/-- A send that makes progress. -/
def progresses : NetEvent → Bool
  | .send _ (.ok written) => 0<written
  | _ => false

/-- A poll. -/
def isPoll : NetEvent → Bool
  | .poll _ => true
  | _ => false

/-- Between two sends that make progress there are not more polls than the budget. -/
def PollsWithin (budget : ℕ) (events : List NetEvent) : Prop :=
  ∀ before stall after,events=before++stall++after → (∀ e∈stall,progresses e=false) →
    stall.countP isPoll≤budget

/-- Every send passes the bytes that follow those accepted before, as many as fit a frame. -/
def InOrder (data : List UInt8) (events : List NetEvent) : Prop :=
  ∀ before passed reply after,events=before++.send passed reply::after →
    passed=(data.drop (accepted before).length).take clpNetSendFrameMaxData

/-- What is left of a budget after a call. Progress fills it again. -/
def leftAfter (budget remaining : ℕ) (e : NetEvent) : ℕ :=
  if progresses e=true then budget else if isPoll e=true then remaining-1 else remaining

/-- The polls keep to what is left of a budget. -/
def Budgeted (budget : ℕ) : ℕ → List NetEvent → Prop
  | _,[] => True
  | remaining,e::events =>
    (isPoll e=true → 0< remaining) ∧ Budgeted budget (leftAfter budget remaining e) events

section Events

variable {events first second : List NetEvent} {budget remaining more : ℕ}

theorem leftAfter_mono (hle : remaining≤ more) (e : NetEvent) :
    leftAfter budget remaining e≤ leftAfter budget more e := by
  unfold leftAfter
  split
  · exact le_rfl
  split
  · omega
  · exact hle

theorem leftAfter_le (hle : remaining≤budget) (e : NetEvent) :
    leftAfter budget remaining e≤budget := by
  unfold leftAfter
  split
  · exact le_rfl
  split
  · omega
  · exact hle

/-- A larger rest of the budget is enough too. -/
theorem Budgeted.mono (h : Budgeted budget remaining events) (hle : remaining≤ more) :
    Budgeted budget more events := by
  induction events generalizing remaining more with
  | nil => trivial
  | cons e events ih =>
    obtain ⟨hpoll,htail⟩ := h
    exact ⟨fun he => (hpoll he).trans_le hle,ih htail (leftAfter_mono hle e)⟩

/-- Calls without progress keep to what is left. -/
theorem Budgeted.polls_le {stall : List NetEvent} (h : Budgeted budget remaining (stall++second))
    (hstall : ∀ e∈stall,progresses e=false) : stall.countP isPoll≤ remaining := by
  induction stall generalizing remaining with
  | nil => exact Nat.zero_le _
  | cons e stall ih =>
    obtain ⟨hpoll,htail⟩ := h
    have hle := ih htail fun e he => hstall e (List.mem_cons_of_mem _ he)
    unfold leftAfter at hle
    rw [hstall e List.mem_cons_self,if_neg Bool.false_ne_true] at hle
    rw [List.countP_cons]
    by_cases he : isPoll e=true
    · have hpos := hpoll he
      rw [if_pos he] at hle ⊢
      omega
    · rw [if_neg he] at hle ⊢
      omega

/-- What comes behind some calls keeps to the budget. -/
theorem Budgeted.behind (h : Budgeted budget remaining (first++second))
    (hle : remaining≤budget) : Budgeted budget budget second := by
  induction first generalizing remaining with
  | nil => exact h.mono hle
  | cons e first ih => exact ih h.2 (leftAfter_le hle e)

/-- Calls that keep to the budget have few polls between progress. -/
theorem Budgeted.pollsWithin (h : Budgeted budget budget events) : PollsWithin budget events := by
  intro before stall after hevents hstall
  rw [hevents,List.append_assoc] at h
  exact (h.behind le_rfl).polls_le hstall

/-- The events are polls. -/
def AllPolls (events : List NetEvent) : Prop := ∀ e∈events,∃ reply,e=NetEvent.poll reply

theorem AllPolls.tail {e : NetEvent} (h : AllPolls (e::events)) : AllPolls events :=
  fun e he => h e (List.mem_cons_of_mem _ he)

/-- Polls that are in the budget come before what keeps to the rest of it. -/
theorem Budgeted.append_polls (h : Budgeted budget remaining second) (hpolls : AllPolls first) :
    Budgeted budget (remaining+first.length) (first++second) := by
  induction first with
  | nil => exact h
  | cons e first ih =>
    obtain ⟨reply,rfl⟩ := hpolls e List.mem_cons_self
    exact ⟨fun _ => Nat.succ_pos _,ih hpolls.tail⟩

theorem accepted_polls (hpolls : AllPolls first) (second : List NetEvent) :
    accepted (first++second)=accepted second := by
  induction first with
  | nil => rfl
  | cons e first ih =>
    obtain ⟨reply,rfl⟩ := hpolls e List.mem_cons_self
    exact ih hpolls.tail

theorem Short.tail {e : NetEvent} (h : Short (e::events)) : Short events :=
  fun passed written hmem => h passed written (List.mem_cons_of_mem _ hmem)

theorem Short.right (h : Short (first++second)) : Short second :=
  fun passed written hmem => h passed written (List.mem_append_right _ hmem)

end Events

section Runs

variable {net : Peer δ} {handle : UInt16} {capacity : UInt32} {s t u : Link δ}

theorem Calls.append {first second : List NetEvent}
    (h : Calls net handle capacity s first t) (h' : Calls net handle capacity t second u) :
    Calls net handle capacity s (first++second) u := by
  induction h with
  | nil => exact h'
  | send hpassed hcall _ ih => exact .send hpassed hcall (ih h')
  | recv hcall _ ih => exact .recv hcall (ih h')
  | poll hcall _ ih => exact .poll hcall (ih h')

/-- A send takes the bytes that fit a frame. -/
theorem clNetSend_take (net : Peer δ) (handle : UInt16) (data : List UInt8) :
    clNetSend net handle data=clNetSend net handle (data.take clpNetSendFrameMaxData) := by
  unfold clNetSend
  rw [List.take_take,Nat.min_self]

theorem clNetSend_returns (net : Peer δ) (handle : UInt16) (data : List UInt8) (s : Link δ) :
    ∃ reply t,clNetSend net handle data s=(some reply,t) := by
  obtain ⟨reply,t,-,hrun,-⟩ := (keeps_clNetSend net handle data).returns s
  exact ⟨reply,t,hrun⟩

theorem clNetRecv_returns (net : Peer δ) (handle : UInt16) (capacity : UInt32) (s : Link δ) :
    ∃ reply t,clNetRecv net handle capacity s=(some reply,t) := by
  obtain ⟨reply,t,-,hrun,-⟩ := (keeps_clNetRecv net handle capacity).returns s
  exact ⟨reply,t,hrun⟩

theorem clNetPoll_returns (net : Peer δ) (handle : UInt16) (s : Link δ) :
    ∃ reply t,clNetPoll net handle s=(some reply,t) := by
  obtain ⟨reply,t,-,hrun,-⟩ := (keeps_clNetPoll net handle).returns s
  exact ⟨reply,t,hrun⟩

/-- What follows a call that returned. -/
theorem andThen_ok {α β : Type} {p : Prog (Link δ) (Except ℤ α)} {a : α}
    (h : p s=(some (.ok a),t)) (f : α → Prog (Link δ) (Except ℤ β)) :
    andThen p f s=f a t := by
  unfold andThen
  rw [bind_run h]

/-- A call that failed ends the run. -/
theorem andThen_error {α β : Type} {p : Prog (Link δ) (Except ℤ α)} {code : ℤ}
    (h : p s=(some (.error code),t)) (f : α → Prog (Link δ) (Except ℤ β)) :
    andThen p f s=(some (.error code),t) := by
  unfold andThen
  rw [bind_run h]
  rfl

/-- A wait returns after polls out of what is left of the budget, and says what remains. -/
theorem waitFlagsFrom_calls (net : Peer δ) (handle : UInt16) (requiredFlags capacity : UInt32)
    (remaining : ℕ) (s : Link δ) :
    ∃ r t events,waitFlagsFrom net handle requiredFlags remaining s=(some r,t) ∧
      Calls net handle capacity s events t ∧ AllPolls events ∧ events.length≤ remaining ∧
      ∀ reply,r=.ok reply → reply.2.val+events.length≤ remaining := by
  induction remaining generalizing s with
  | zero =>
    exact ⟨.error (-3),s,[],rfl,.nil s,fun _ he => absurd he List.not_mem_nil,le_rfl,
      fun _ h => by cases h⟩
  | succ remaining ih =>
    obtain ⟨flags,t,hpoll⟩ := clNetPoll_returns net handle s
    have hone : AllPolls [NetEvent.poll flags] := fun e he =>
      ⟨flags,List.mem_singleton.mp he⟩
    unfold waitFlagsFrom
    cases flags with
    | error code =>
      rw [andThen_error hpoll]
      exact ⟨.error code,t,[.poll (.error code)],rfl,.poll hpoll (.nil t),hone,
        Nat.succ_le_succ (Nat.zero_le _),fun _ h => by cases h⟩
    | ok flags =>
      rw [andThen_ok hpoll]
      by_cases hflags : flags &&& requiredFlags=requiredFlags
      · rw [if_pos hflags]
        refine ⟨.ok (flags,Fin.last remaining),t,[.poll (.ok flags)],rfl,
          .poll hpoll (.nil t),hone,Nat.succ_le_succ (Nat.zero_le _),fun reply h => ?_⟩
        cases h
        exact le_rfl
      · rw [if_neg hflags]
        obtain ⟨r,u,events,hwait,hcalls,hpolls,hlength,hrest⟩ := ih t
        have hall : AllPolls (NetEvent.poll (.ok flags)::events) := by
          intro e he
          rcases List.mem_cons.mp he with rfl | hmem
          · exact ⟨_,rfl⟩
          · exact hpolls e hmem
        cases r with
        | error code =>
          rw [andThen_error hwait]
          exact ⟨.error code,u,_,rfl,.poll hpoll hcalls,hall,Nat.succ_le_succ hlength,
            fun _ h => by cases h⟩
        | ok reply =>
          rw [andThen_ok hwait]
          refine ⟨_,u,_,rfl,.poll hpoll hcalls,hall,Nat.succ_le_succ hlength,
            fun other h => ?_⟩
          cases h
          have hle := hrest reply rfl
          rw [List.length_cons]
          dsimp only [Fin.val_castSucc]
          omega

/-- The same of a wait that checks its arguments. -/
theorem netWaitFlagsBudget_calls (net : Peer δ) (handle : UInt16)
    (requiredFlags capacity : UInt32) (remaining : ℕ) (s : Link δ) :
    ∃ r t events,netWaitFlagsBudget net handle requiredFlags remaining s=(some r,t) ∧
      Calls net handle capacity s events t ∧ AllPolls events ∧ events.length≤ remaining ∧
      ∀ reply,r=.ok reply → reply.2.val+events.length≤ remaining := by
  unfold netWaitFlagsBudget
  split
  · exact ⟨.error (-1),s,[],rfl,.nil s,fun _ he => absurd he List.not_mem_nil,
      Nat.zero_le _,fun _ h => by cases h⟩
  · exact waitFlagsFrom_calls net handle requiredFlags capacity remaining s

end Runs

/-- The sends pass what follows a position that what is accepted moves on. -/
def PassesFrom (data : List UInt8) : ℕ → List NetEvent → Prop
  | _,[] => True
  | sent,e::events =>
    (∀ passed reply,e=.send passed reply →
      passed=(data.drop sent).take clpNetSendFrameMaxData) ∧
    PassesFrom data (sent+(accepted [e]).length) events

/-- What the calls of a run from a position have done to the data. -/
structure Delivers (data : List UInt8) (sent : ℕ) (events : List NetEvent) (r : Except ℤ ℕ) :
    Prop where
  /-- The bytes accepted are the next ones, in their order. -/
  prefix_drop : accepted events<+: data.drop sent
  /-- A success is the acceptance of all. -/
  complete : ∀ n,r=.ok n → n=data.length ∧ accepted events=data.drop sent
  /-- Each send passes the bytes that are next. -/
  passes : PassesFrom data sent events

section Sending

variable {net : Peer δ} {handle : UInt16} {data : List UInt8} {sent written : ℕ}
  {events first : List NetEvent} {r : Except ℤ ℕ}

theorem accepted_cons (e : NetEvent) (events : List NetEvent) :
    accepted (e::events)=accepted [e]++accepted events := by
  cases e with
  | send passed reply =>
    cases reply with
    | error code => rfl
    | ok written =>
      have hone : accepted [NetEvent.send passed (.ok written)]=passed.take written :=
        List.append_nil _
      rw [hone]
      rfl
  | recv reply => rfl
  | poll reply => rfl

/-- Passing from the beginning is passing in order. -/
theorem PassesFrom.at (h : PassesFrom data sent events) {before after : List NetEvent}
    {passed : List UInt8} {reply : Except ℤ ℕ}
    (hevents : events=before++.send passed reply::after) :
    passed=(data.drop (sent+(accepted before).length)).take clpNetSendFrameMaxData := by
  induction before generalizing sent events with
  | nil =>
    subst hevents
    exact h.1 passed reply rfl
  | cons e before ih =>
    subst hevents
    have hpassed := ih h.2 rfl
    rw [accepted_cons,List.length_append,← Nat.add_assoc]
    exact hpassed

/-- Polls before the calls of a run change nothing. -/
theorem Delivers.append_polls (h : Delivers data sent events r) (hpolls : AllPolls first) :
    Delivers data sent (first++events) r := by
  have hpasses : ∀ {first : List NetEvent},AllPolls first →
      PassesFrom data sent (first++events) := by
    intro first hpolls
    induction first with
    | nil => exact h.passes
    | cons e first ih =>
      obtain ⟨reply,rfl⟩ := hpolls e List.mem_cons_self
      exact ⟨fun _ _ he => (by cases he),ih hpolls.tail⟩
  refine ⟨?_,?_,hpasses hpolls⟩
  · rw [accepted_polls hpolls]
    exact h.prefix_drop
  · rw [accepted_polls hpolls]
    exact h.complete

/-- A send that is accepted in part goes before the calls that go on behind this part. -/
theorem Delivers.send (h : Delivers data (sent+written) events r)
    (hshort : written≤((data.drop sent).take clpNetSendFrameMaxData).length) :
    Delivers data sent
      (.send ((data.drop sent).take clpNetSendFrameMaxData) (.ok written)::events) r := by
  rw [List.length_take,List.length_drop] at hshort
  have hparts : data.drop sent=
      ((data.drop sent).take clpNetSendFrameMaxData).take written++data.drop (sent+written) := by
    rw [List.take_take,Nat.min_eq_left (by omega),← List.drop_drop,List.take_append_drop]
  have hlength : (accepted [NetEvent.send ((data.drop sent).take clpNetSendFrameMaxData)
      (.ok written)]).length=written := by
    unfold accepted
    rw [accepted,List.append_nil,List.length_take,List.length_take,List.length_drop]
    omega
  refine ⟨?_,fun n hn => ?_,fun passed reply he => ?_,?_⟩
  · obtain ⟨rest,hrest⟩ := h.prefix_drop
    refine ⟨rest,?_⟩
    unfold accepted
    rw [List.append_assoc,hrest]
    exact hparts.symm
  · obtain ⟨hall,heq⟩ := h.complete n hn
    refine ⟨hall,?_⟩
    unfold accepted
    rw [heq]
    exact hparts.symm
  · cases he
    rfl
  · rw [hlength]
    exact h.passes

/-- A send that fails ends a run with nothing more accepted. -/
theorem delivers_failed (data : List UInt8) (sent : ℕ) (code : ℤ) :
    Delivers data sent
      [.send ((data.drop sent).take clpNetSendFrameMaxData) (.error code)] (.error code) :=
  ⟨List.nil_prefix,fun _ h => (by cases h),fun _ _ he => (by cases he; rfl),trivial⟩

/-- Nothing more is done. -/
theorem delivers_stopped (data : List UInt8) (sent : ℕ) (code : ℤ) :
    Delivers data sent [] (.error code) :=
  ⟨List.nil_prefix,fun _ h => (by cases h),trivial⟩

/-- The loop of a send of everything ends for every behaviour of the other side. Its calls
keep to the budget, and where the sends are short they deliver the data from the position. By
induction on the bytes that are left, and for the same number of them on the attempts. -/
theorem sendAllFrom_calls (net : Peer δ) (handle : UInt16) (capacity : UInt32)
    (data : List UInt8) {budget : ℕ} (sent remaining : ℕ) (s : Link δ)
    (hsent : sent≤ data.length) (hle : remaining≤budget) :
    ∃ r t events,sendAllFrom net handle data budget sent remaining s=(some r,t) ∧
      Calls net handle capacity s events t ∧ Budgeted budget remaining events ∧
      (Short events → Delivers data sent events r) := by
  induction hleft : data.length-sent using Nat.strong_induction_on
    generalizing sent remaining s with
  | _ left ihSent =>
    induction remaining using Nat.strong_induction_on generalizing s with
    | _ remaining ihRemaining =>
      unfold sendAllFrom
      by_cases hmore : sent< data.length
      · rw [dif_pos hmore]
        obtain ⟨reply,t,hsend⟩ := clNetSend_returns net handle
          ((data.drop sent).take clpNetSendFrameMaxData) s
        have hcall := hsend
        rw [← clNetSend_take] at hcall
        have hfits : ((data.drop sent).take clpNetSendFrameMaxData).length≤
            clpNetSendFrameMaxData := by
          rw [List.length_take]
          exact Nat.min_le_left _ _
        cases reply with
        | error code =>
          rw [andThen_error hcall]
          exact ⟨.error code,t,_,rfl,.send hfits hsend (.nil t),
            ⟨fun h => (by cases h),trivial⟩,fun _ => delivers_failed data sent code⟩
        | ok written =>
          rw [andThen_ok hcall]
          by_cases hsome : 0< written
          · rw [dif_pos hsome]
            by_cases hover : data.length-sent< written
            · rw [dif_pos hover]
              refine ⟨.error (-2),t,_,rfl,.send hfits hsend (.nil t),
                ⟨fun h => (by cases h),trivial⟩,fun hshort => ?_⟩
              have hlong := hshort _ written List.mem_cons_self
              rw [List.length_take,List.length_drop] at hlong
              omega
            · rw [dif_neg hover]
              obtain ⟨r,u,events,hrun,hcalls,hbudget,hdelivers⟩ :=
                ihSent (data.length-(sent+written)) (by omega) (sent+written) budget t
                  (by omega) le_rfl rfl
              refine ⟨r,u,_,hrun,.send hfits hsend hcalls,⟨fun h => (by cases h),?_⟩,
                fun hshort => ?_⟩
              · have hfull : leftAfter budget remaining (.send
                    ((data.drop sent).take clpNetSendFrameMaxData) (.ok written))=budget :=
                  if_pos (decide_eq_true hsome)
                rw [hfull]
                exact hbudget
              · exact (hdelivers hshort.tail).send (hshort _ written List.mem_cons_self)
          · rw [dif_neg hsome]
            have hzero : written=0 := by
              omega
            subst hzero
            obtain ⟨waited,u,stall,hwait,hstall,hpolls,hlength,hrest⟩ :=
              netWaitFlagsBudget_calls net handle clpNetSocketFlagWritable capacity remaining t
            have hnone : leftAfter budget remaining (.send
                ((data.drop sent).take clpNetSendFrameMaxData) (.ok 0))=remaining := rfl
            have hnothing : ∀ {events : List NetEvent} {r : Except ℤ ℕ},
                Delivers data sent events r → Delivers data sent
                  (.send ((data.drop sent).take clpNetSendFrameMaxData) (.ok 0)::events) r :=
              fun h => @Delivers.send data sent 0 _ _ h (Nat.zero_le _)
            cases waited with
            | error code =>
              rw [andThen_error hwait]
              refine ⟨.error code,u,_,rfl,.send hfits hsend hstall,
                ⟨fun h => (by cases h),?_⟩,fun _ => ?_⟩
              · have hbudget := (show Budgeted budget (remaining-stall.length) []
                  from trivial).append_polls hpolls
                rw [List.append_nil,Nat.sub_add_cancel hlength] at hbudget
                rw [hnone]
                exact hbudget
              · have hstopped := (delivers_stopped data sent code).append_polls hpolls
                rw [List.append_nil] at hstopped
                exact hnothing hstopped
            | ok reply =>
              rw [andThen_ok hwait]
              have hspent := hrest reply rfl
              obtain ⟨r,v,events,hrun,hcalls,hbudget,hdelivers⟩ :=
                ihRemaining reply.2 reply.2.isLt u (by omega)
              refine ⟨r,v,_,hrun,.send hfits hsend (hstall.append hcalls),
                ⟨fun h => (by cases h),?_⟩,fun hshort => ?_⟩
              · rw [hnone]
                exact (hbudget.append_polls hpolls).mono hspent
              · exact hnothing ((hdelivers hshort.tail.right).append_polls hpolls)
      · rw [dif_neg hmore]
        have hall : sent=data.length := by
          omega
        refine ⟨.ok sent,s,[],rfl,.nil s,trivial,fun _ => ⟨List.nil_prefix,fun n hn => ?_,
          trivial⟩⟩
        cases hn
        exact ⟨hall,by rw [hall,List.drop_length]; rfl⟩

/-- The loop of a receive ends for every behaviour of the other side, after no more polls
than are left. -/
theorem recvWaitFrom_calls (net : Peer δ) (handle : UInt16) (capacity : UInt32)
    (remaining : ℕ) (s : Link δ) :
    ∃ r t events,recvWaitFrom net handle capacity remaining s=(some r,t) ∧
      Calls net handle capacity s events t ∧ events.countP isPoll≤ remaining := by
  induction remaining using Nat.strong_induction_on generalizing s with
  | _ remaining ih =>
    obtain ⟨reply,t,hrecv⟩ := clNetRecv_returns net handle capacity s
    unfold recvWaitFrom
    cases reply with
    | error code =>
      rw [andThen_error hrecv]
      exact ⟨.error code,t,_,rfl,.recv hrecv (.nil t),Nat.zero_le _⟩
    | ok bytes =>
      rw [andThen_ok hrecv]
      by_cases hbytes : bytes≠[]
      · rw [if_pos hbytes]
        exact ⟨.ok bytes,t,_,rfl,.recv hrecv (.nil t),Nat.zero_le _⟩
      · rw [if_neg hbytes]
        obtain ⟨waited,u,stall,hwait,hstall,-,hlength,hrest⟩ :=
          netWaitFlagsBudget_calls net handle clpNetSocketFlagReadable capacity remaining t
        have hcount : ∀ events : List NetEvent,
            (NetEvent.recv (.ok bytes)::events).countP isPoll=events.countP isPoll :=
          fun events => List.countP_cons_of_neg Bool.false_ne_true
        have hpolls := @List.countP_le_length NetEvent isPoll stall
        cases waited with
        | error code =>
          rw [andThen_error hwait]
          refine ⟨.error code,u,_,rfl,.recv hrecv hstall,?_⟩
          rw [hcount]
          omega
        | ok reply =>
          rw [andThen_ok hwait]
          have hspent := hrest reply rfl
          obtain ⟨r,v,events,hrun,hcalls,hle⟩ := ih reply.2 reply.2.isLt u
          refine ⟨r,v,_,hrun,.recv hrecv (hstall.append hcalls),?_⟩
          rw [hcount,List.countP_append]
          omega

theorem atLeastOne_eq (attempts : UInt32) : atLeastOne attempts=max attempts.toNat 1 := by
  unfold atLeastOne
  by_cases h : attempts=0
  · rw [if_pos h,h]
    rfl
  · have hpos : attempts.toNat≠0 := fun h' => h (UInt32.toNat_inj.mp h')
    rw [if_neg h]
    omega

/-- A send of everything ends for every behaviour of the other side, with few polls between
progress. Where its sends are short or complete, what is accepted is a beginning of the data,
each byte once and in order, no byte is passed again, and a success means all of it. A receive
that waits ends too. -/
theorem send_all_once (net : Peer δ) (handle : UInt16) (data : List UInt8)
    (waitAttempts : UInt32) (s : Link δ) :
    (∃ r t events,clNetSendAll net handle data waitAttempts s=(some r,t) ∧
      Calls net handle 0 s events t ∧ PollsWithin (max waitAttempts.toNat 1) events ∧
      (Short events → accepted events<+: data ∧ InOrder data events ∧
        ∀ n,r=.ok n → n=data.length ∧ accepted events=data)) ∧
    ∀ capacity,∃ r t events,clNetRecvWait net handle capacity waitAttempts s=(some r,t) ∧
      Calls net handle capacity s events t ∧
      events.countP isPoll≤ max waitAttempts.toNat 1 := by
  rw [← atLeastOne_eq]
  constructor
  · unfold clNetSendAll
    split
    · refine ⟨.error (-1),s,[],rfl,.nil s,?_,fun _ => ⟨List.nil_prefix,?_,?_⟩⟩
      · exact Budgeted.pollsWithin trivial
      · intro before passed reply after hevents
        exact absurd hevents.symm (List.append_ne_nil_of_right_ne_nil _ (List.cons_ne_nil _ _))
      · intro n hn
        cases hn
    · obtain ⟨r,t,events,hrun,hcalls,hbudget,hdelivers⟩ :=
        sendAllFrom_calls net handle 0 data 0 (atLeastOne waitAttempts) s (Nat.zero_le _) le_rfl
      refine ⟨r,t,events,hrun,hcalls,hbudget.pollsWithin,fun hshort => ?_⟩
      have h := hdelivers hshort
      refine ⟨h.prefix_drop,fun before passed reply after hevents => ?_,h.complete⟩
      have hpassed := h.passes.at hevents
      rw [Nat.zero_add] at hpassed
      exact hpassed
  · intro capacity
    unfold clNetRecvWait
    split
    · exact ⟨.error (-1),s,[],rfl,.nil s,Nat.zero_le _⟩
    · exact recvWaitFrom_calls net handle capacity _ s

end Sending

end ChisLink.NetTransfers
