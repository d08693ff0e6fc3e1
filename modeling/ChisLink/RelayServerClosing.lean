import ChisLink.FairSchedules
import ChisLink.RelayServerDelivery

/-!
# Sending to a client while it is closed

One client, its queue and the statements of `enqueue` and `closeClient` one by one. Any
number of goroutines call the two functions, in any order. A send on the closed channel
and a second close of a channel panic; `done` is closed before the mutex of the queue is
taken, so that a sender that waits with the mutex gives up.
-/

namespace ChisLink.RelayServerClosing

open LabelledRuns FairSchedules RelayServerModel RelayServerStep RelayServerMutex
  RelayServerRegistry

/-- Where a goroutine stands in `enqueue`. -/
inductive SenderPc where
  /-- It is not in the function. -/
  | idle
  /-- Before `c.outMu.Lock`. -/
  | locking (entry : Entry)
  /-- Before it looks at `c.closed`. -/
  | checking (entry : Entry)
  /-- Before the first select. -/
  | sending (entry : Entry)
  /-- In the second select. -/
  | waiting (entry : Entry)
  /-- Before `c.outMu.Unlock`. -/
  | unlocking
deriving DecidableEq

/-- Where a goroutine stands in `closeClient`. -/
inductive CloserPc where
  /-- It is not in the function. -/
  | idle
  /-- Before `cl.closeOnce.Do`. -/
  | entering
  /-- Before `close(cl.done)`. -/
  | closingDone
  /-- Before `cl.outMu.Lock`. -/
  | locking
  /-- Before it sets `cl.closed`. -/
  | marking
  /-- Before `close(cl.out)`. -/
  | closingOut
  /-- Before `cl.conn.Close`. -/
  | closingConn
  /-- Before `cl.outMu.Unlock`. -/
  | unlocking
  /-- The function of `closeOnce` has returned. -/
  | leaving
deriving DecidableEq

/-- The state of a `sync.Once`. -/
inductive Once where
  /-- `Do` was not called. -/
  | fresh
  /-- A goroutine runs the function. -/
  | running (k : ℕ)
  /-- The function has returned. -/
  | over
deriving DecidableEq

/-- Who holds `outMu`. -/
inductive Holder where
  /-- A goroutine in `enqueue`. -/
  | sender (i : ℕ)
  /-- A goroutine in `closeClient`. -/
  | closer (k : ℕ)
deriving DecidableEq

/-- What ends the program. -/
inductive Panic where
  /-- `send on closed channel`. -/
  | sendOnClosed
  /-- `close of closed channel`. -/
  | closeOfClosed
deriving DecidableEq

/-- The client, and the goroutines in the two functions. -/
structure Sharing where
  /-- Content of the channel `out`, oldest first. -/
  out : List Entry
  /-- The channel `out` was closed. -/
  outClosed : Bool
  /-- The channel `done` was closed. -/
  done : Bool
  /-- The flag `closed`. -/
  closed : Bool
  /-- `conn.Close` was called. -/
  connClosed : Bool
  /-- The mutex `outMu`. -/
  outMu : Option Holder
  /-- `closeOnce`. -/
  closeOnce : Once
  /-- The goroutines in `enqueue`. -/
  senders : ℕ → SenderPc
  /-- The goroutines in `closeClient`. -/
  closers : ℕ → CloserPc
  /-- The program has panicked. -/
  panicked : Option Panic

/-- The client as `serveConn` creates it. -/
def newSharing : Sharing where
  out := []
  outClosed := false
  done := false
  closed := false
  connClosed := false
  outMu := none
  closeOnce := .fresh
  senders := fun _ => .idle
  closers := fun _ => .idle
  panicked := none

/-- The statements, with the goroutine that runs them. -/
inductive Action where
  /-- `enqueue` is called. -/
  | call (i : ℕ) (entry : Entry)
  /-- `c.outMu.Lock`. -/
  | lock (i : ℕ)
  /-- `if c.closed`. -/
  | check (i : ℕ)
  /-- The first select. -/
  | trySend (i : ℕ)
  /-- The second select sends. -/
  | send (i : ℕ)
  /-- The second select receives from `c.done`. -/
  | giveUp (i : ℕ)
  /-- `c.outMu.Unlock`. -/
  | unlock (i : ℕ)
  /-- `closeClient` is called. -/
  | close (k : ℕ)
  /-- `cl.closeOnce.Do` begins, or returns at once. -/
  | enter (k : ℕ)
  /-- `close(cl.done)`. -/
  | closeDone (k : ℕ)
  /-- `cl.outMu.Lock`. -/
  | lockClose (k : ℕ)
  /-- `cl.closed = true`. -/
  | mark (k : ℕ)
  /-- `close(cl.out)`. -/
  | closeOut (k : ℕ)
  /-- `cl.conn.Close`. -/
  | closeConn (k : ℕ)
  /-- `cl.outMu.Unlock`. -/
  | unlockClose (k : ℕ)
  /-- `cl.closeOnce.Do` returns. -/
  | leave (k : ℕ)
  /-- The writer receives from `cl.out`. -/
  | receive
deriving DecidableEq

/-- A goroutine goes on in `enqueue`. -/
def Sharing.sender (s : Sharing) (i : ℕ) (pc : SenderPc) : Sharing :=
  { s with senders := Function.update s.senders i pc }

/-- A goroutine goes on in `closeClient`. -/
def Sharing.closer (s : Sharing) (k : ℕ) (pc : CloserPc) : Sharing :=
  { s with closers := Function.update s.closers k pc }

/-- The first select of `enqueue`. -/
def trySend (s : Sharing) (i : ℕ) (entry : Entry) : Sharing :=
  if s.outClosed then { s with panicked := some .sendOnClosed }
  else if s.out.length<defaultOutQueue then
    { s with out := s.out++[entry] }.sender i .unlocking
  else if (parseHeader entry.sent.raw).typ=waTypeData then s.sender i .unlocking
  else s.sender i (.waiting entry)

/-- The second select when it sends. -/
def sendWaiting (s : Sharing) (i : ℕ) (entry : Entry) : Option Sharing :=
  if s.outClosed then some { s with panicked := some .sendOnClosed }
  else if s.out.length<defaultOutQueue then
    some ({ s with out := s.out++[entry] }.sender i .unlocking)
  else none

/-- A statement of `enqueue`. -/
def stepSender (s : Sharing) : Action → Option Sharing
  | .call i entry => if s.senders i=.idle then some (s.sender i (.locking entry)) else none
  | .lock i =>
    match s.senders i with
    | .locking entry =>
      if s.outMu=none then
        some ({ s with outMu := some (.sender i) }.sender i (.checking entry))
      else none
    | _ => none
  | .check i =>
    match s.senders i with
    | .checking entry =>
      some (s.sender i (if s.closed then .unlocking else .sending entry))
    | _ => none
  | .trySend i =>
    match s.senders i with
    | .sending entry => some (trySend s i entry)
    | _ => none
  | .send i =>
    match s.senders i with
    | .waiting entry => sendWaiting s i entry
    | _ => none
  | .giveUp i =>
    match s.senders i with
    | .waiting _ => if s.done then some (s.sender i .unlocking) else none
    | _ => none
  | .unlock i =>
    if s.senders i=.unlocking then some ({ s with outMu := none }.sender i .idle) else none
  | _ => none

/-- A statement of `closeClient`. -/
def stepCloser (s : Sharing) : Action → Option Sharing
  | .close k => if s.closers k=.idle then some (s.closer k .entering) else none
  | .enter k =>
    if s.closers k=.entering then
      match s.closeOnce with
      | .fresh => some ({ s with closeOnce := .running k }.closer k .closingDone)
      | .running _ => none
      | .over => some (s.closer k .idle)
    else none
  | .closeDone k =>
    if s.closers k=.closingDone then
      if s.done then some { s with panicked := some .closeOfClosed }
      else some ({ s with done := true }.closer k .locking)
    else none
  | .lockClose k =>
    if s.closers k=.locking ∧ s.outMu=none then
      some ({ s with outMu := some (.closer k) }.closer k .marking)
    else none
  | .mark k =>
    if s.closers k=.marking then some ({ s with closed := true }.closer k .closingOut)
    else none
  | .closeOut k =>
    if s.closers k=.closingOut then
      if s.outClosed then some { s with panicked := some .closeOfClosed }
      else some ({ s with outClosed := true }.closer k .closingConn)
    else none
  | .closeConn k =>
    if s.closers k=.closingConn then some ({ s with connClosed := true }.closer k .unlocking)
    else none
  | .unlockClose k =>
    if s.closers k=.unlocking then some ({ s with outMu := none }.closer k .leaving) else none
  | .leave k =>
    if s.closers k=.leaving then some ({ s with closeOnce := .over }.closer k .idle) else none
  | _ => none

/-- One statement, as long as the program has not panicked. -/
def step (s : Sharing) (action : Action) : Option Sharing :=
  if s.panicked=none then
    match action with
    | .receive =>
      match s.out with
      | [] => none
      | _::rest => some { s with out := rest }
    | .call _ _ | .lock _ | .check _ | .trySend _ | .send _ | .giveUp _ | .unlock _ =>
      stepSender s action
    | .close _ | .enter _ | .closeDone _ | .lockClose _ | .mark _ | .closeOut _ | .closeConn _
      | .unlockClose _ | .leave _ => stepCloser s action
  else none

/-- The branches of the statements. -/
inductive Transition (s : Sharing) : Action → Sharing → Prop where
  /-- A call of `enqueue`. -/
  | call {i : ℕ} {entry : Entry} (hpc : s.senders i=.idle) :
      Transition s (.call i entry) (s.sender i (.locking entry))
  /-- It gets the mutex. -/
  | lock {i : ℕ} {entry : Entry} (hpc : s.senders i=.locking entry) (hfree : s.outMu=none) :
      Transition s (.lock i) ({ s with outMu := some (.sender i) }.sender i (.checking entry))
  /-- The client is closed. -/
  | refuse {i : ℕ} {entry : Entry} (hpc : s.senders i=.checking entry)
      (hclosed : s.closed=true) : Transition s (.check i) (s.sender i .unlocking)
  /-- It is not. -/
  | pass {i : ℕ} {entry : Entry} (hpc : s.senders i=.checking entry)
      (hopen : s.closed=false) : Transition s (.check i) (s.sender i (.sending entry))
  /-- The first select sends. -/
  | push {i : ℕ} {entry : Entry} (hpc : s.senders i=.sending entry)
      (hopen : s.outClosed=false) (hspace : s.out.length<defaultOutQueue) :
      Transition s (.trySend i) ({ s with out := s.out++[entry] }.sender i .unlocking)
  /-- DATA is dropped. -/
  | drop {i : ℕ} {entry : Entry} (hpc : s.senders i=.sending entry)
      (hfull : defaultOutQueue≤ s.out.length)
      (hdata : (parseHeader entry.sent.raw).typ=waTypeData) :
      Transition s (.trySend i) (s.sender i .unlocking)
  /-- Other records wait. -/
  | wait {i : ℕ} {entry : Entry} (hpc : s.senders i=.sending entry) (hopen : s.outClosed=false)
      (hfull : defaultOutQueue≤ s.out.length)
      (hdata : (parseHeader entry.sent.raw).typ≠waTypeData) :
      Transition s (.trySend i) (s.sender i (.waiting entry))
  /-- The second select sends. -/
  | send {i : ℕ} {entry : Entry} (hpc : s.senders i=.waiting entry)
      (hopen : s.outClosed=false) (hspace : s.out.length<defaultOutQueue) :
      Transition s (.send i) ({ s with out := s.out++[entry] }.sender i .unlocking)
  /-- The second select gives up. -/
  | giveUp {i : ℕ} {entry : Entry} (hpc : s.senders i=.waiting entry) (hdone : s.done=true) :
      Transition s (.giveUp i) (s.sender i .unlocking)
  /-- `enqueue` returns. -/
  | unlock {i : ℕ} (hpc : s.senders i=.unlocking) :
      Transition s (.unlock i) ({ s with outMu := none }.sender i .idle)
  /-- A call of `closeClient`. -/
  | close {k : ℕ} (hpc : s.closers k=.idle) : Transition s (.close k) (s.closer k .entering)
  /-- It is the first one. -/
  | enter {k : ℕ} (hpc : s.closers k=.entering) (honce : s.closeOnce=.fresh) :
      Transition s (.enter k) ({ s with closeOnce := .running k }.closer k .closingDone)
  /-- An earlier one has closed the client. -/
  | skip {k : ℕ} (hpc : s.closers k=.entering) (honce : s.closeOnce=.over) :
      Transition s (.enter k) (s.closer k .idle)
  /-- `done` is closed. -/
  | closeDone {k : ℕ} (hpc : s.closers k=.closingDone) (hdone : s.done=false) :
      Transition s (.closeDone k) ({ s with done := true }.closer k .locking)
  /-- The mutex is taken. -/
  | lockClose {k : ℕ} (hpc : s.closers k=.locking) (hfree : s.outMu=none) :
      Transition s (.lockClose k) ({ s with outMu := some (.closer k) }.closer k .marking)
  /-- The flag is set. -/
  | mark {k : ℕ} (hpc : s.closers k=.marking) :
      Transition s (.mark k) ({ s with closed := true }.closer k .closingOut)
  /-- `out` is closed. -/
  | closeOut {k : ℕ} (hpc : s.closers k=.closingOut) (hopen : s.outClosed=false) :
      Transition s (.closeOut k) ({ s with outClosed := true }.closer k .closingConn)
  /-- The connection is closed. -/
  | closeConn {k : ℕ} (hpc : s.closers k=.closingConn) :
      Transition s (.closeConn k) ({ s with connClosed := true }.closer k .unlocking)
  /-- The mutex is released. -/
  | unlockClose {k : ℕ} (hpc : s.closers k=.unlocking) :
      Transition s (.unlockClose k) ({ s with outMu := none }.closer k .leaving)
  /-- The closing is over. -/
  | leave {k : ℕ} (hpc : s.closers k=.leaving) :
      Transition s (.leave k) ({ s with closeOnce := .over }.closer k .idle)
  /-- The writer receives. -/
  | receive {entry : Entry} {rest : List Entry} (hout : s.out=entry::rest) :
      Transition s .receive { s with out := rest }
  /-- A send on the closed channel. -/
  | sendPanic {action : Action} {i : ℕ} {entry : Entry}
      (hpc : s.senders i=.sending entry ∨ s.senders i=.waiting entry)
      (hclosed : s.outClosed=true) :
      Transition s action { s with panicked := some .sendOnClosed }
  /-- A second close of `done`. -/
  | donePanic {action : Action} {k : ℕ} (hpc : s.closers k=.closingDone)
      (hdone : s.done=true) : Transition s action { s with panicked := some .closeOfClosed }
  /-- A second close of `out`. -/
  | outPanic {action : Action} {k : ℕ} (hpc : s.closers k=.closingOut)
      (hclosed : s.outClosed=true) :
      Transition s action { s with panicked := some .closeOfClosed }

theorem stepSender_transition {s t : Sharing} {action : Action}
    (h : stepSender s action=some t) : Transition s action t := by
  cases action with
  | call i entry =>
    simp only [stepSender] at h
    split at h <;> cases h
    exact .call ‹_›
  | lock i =>
    simp only [stepSender] at h
    split at h
    · split at h <;> cases h
      exact .lock ‹_› ‹_›
    · cases h
  | check i =>
    simp only [stepSender] at h
    split at h
    next entry hpc =>
      cases h
      cases hclosed : s.closed with
      | true => exact .refuse hpc hclosed
      | false => exact .pass hpc hclosed
    · cases h
  | trySend i =>
    simp only [stepSender] at h
    split at h
    next entry hpc =>
      cases h
      unfold trySend
      split
      next hclosed => exact .sendPanic (.inl hpc) hclosed
      next hopen =>
        have hopen' := Bool.eq_false_iff.mpr hopen
        split
        next hspace => exact .push hpc hopen' hspace
        next hfull =>
          split
          next hdata => exact .drop hpc (Nat.not_lt.mp hfull) hdata
          next hdata => exact .wait hpc hopen' (Nat.not_lt.mp hfull) hdata
    · cases h
  | send i =>
    simp only [stepSender] at h
    split at h
    next entry hpc =>
      unfold sendWaiting at h
      split at h
      next hclosed =>
        cases h
        exact .sendPanic (.inr hpc) hclosed
      next hopen =>
        split at h
        next hspace =>
          cases h
          exact .send hpc (Bool.eq_false_iff.mpr hopen) hspace
        · cases h
    · cases h
  | giveUp i =>
    simp only [stepSender] at h
    split at h
    next entry hpc =>
      split at h <;> cases h
      exact .giveUp hpc ‹_›
    · cases h
  | unlock i =>
    simp only [stepSender] at h
    split at h <;> cases h
    exact .unlock ‹_›
  | _ => cases h

theorem stepCloser_transition {s t : Sharing} {action : Action}
    (h : stepCloser s action=some t) : Transition s action t := by
  cases action with
  | close k =>
    simp only [stepCloser] at h
    split at h <;> cases h
    exact .close ‹_›
  | enter k =>
    simp only [stepCloser] at h
    split at h
    next hpc =>
      split at h
      next honce =>
        cases h
        exact .enter hpc honce
      · cases h
      next honce =>
        cases h
        exact .skip hpc honce
    · cases h
  | closeDone k =>
    simp only [stepCloser] at h
    split at h
    next hpc =>
      split at h
      next hdone =>
        cases h
        exact .donePanic hpc hdone
      next hdone =>
        cases h
        exact .closeDone hpc (Bool.eq_false_iff.mpr hdone)
    · cases h
  | lockClose k =>
    simp only [stepCloser] at h
    split at h
    next hguard =>
      cases h
      exact .lockClose hguard.1 hguard.2
    · cases h
  | mark k =>
    simp only [stepCloser] at h
    split at h <;> cases h
    exact .mark ‹_›
  | closeOut k =>
    simp only [stepCloser] at h
    split at h
    next hpc =>
      split at h
      next hclosed =>
        cases h
        exact .outPanic hpc hclosed
      next hopen =>
        cases h
        exact .closeOut hpc (Bool.eq_false_iff.mpr hopen)
    · cases h
  | closeConn k =>
    simp only [stepCloser] at h
    split at h <;> cases h
    exact .closeConn ‹_›
  | unlockClose k =>
    simp only [stepCloser] at h
    split at h <;> cases h
    exact .unlockClose ‹_›
  | leave k =>
    simp only [stepCloser] at h
    split at h <;> cases h
    exact .leave ‹_›
  | _ => cases h

/-- Every step is one of the listed branches, before any panic. -/
theorem step_transition {s t : Sharing} {action : Action} (h : step s action=some t) :
    s.panicked=none ∧ Transition s action t := by
  unfold step at h
  split at h
  next hcalm =>
    refine ⟨hcalm,?_⟩
    cases action with
    | receive =>
      dsimp only at h
      split at h
      · cases h
      next entry rest hout =>
        cases h
        exact .receive hout
    | call _ _ | lock _ | check _ | trySend _ | send _ | giveUp _ | unlock _ =>
      exact stepSender_transition h
    | close _ | enter _ | closeDone _ | lockClose _ | mark _ | closeOut _ | closeConn _
      | unlockClose _ | leave _ => exact stepCloser_transition h
  · cases h

/-- A goroutine in `enqueue` holds the mutex. -/
def SenderPc.holds : SenderPc → Bool
  | .idle => false
  | .locking _ => false
  | _ => true

/-- It has found the client open. -/
def SenderPc.passed : SenderPc → Bool
  | .sending _ => true
  | .waiting _ => true
  | _ => false

/-- A goroutine in `closeClient` holds the mutex. -/
def CloserPc.holds : CloserPc → Bool
  | .marking => true
  | .closingOut => true
  | .closingConn => true
  | .unlocking => true
  | _ => false

/-- It runs the function of `closeOnce`. -/
def CloserPc.inside : CloserPc → Bool
  | .idle => false
  | .entering => false
  | _ => true

/-- What it has done so far: `done` closed, the flag set, `out` closed. -/
def CloserPc.progress : CloserPc → Bool×Bool×Bool
  | .locking => (true,false,false)
  | .marking => (true,false,false)
  | .closingOut => (true,true,false)
  | .closingConn => (true,true,true)
  | .unlocking => (true,true,true)
  | .leaving => (true,true,true)
  | _ => (false,false,false)

/-- How far the closing of the client is. -/
def progress (s : Sharing) : Bool×Bool×Bool :=
  match s.closeOnce with
  | .fresh => (false,false,false)
  | .running k => (s.closers k).progress
  | .over => (true,true,true)

/-- The mutex, `closeOnce` and the flags agree with the program counters. -/
structure Guarded (s : Sharing) : Prop where
  /-- Nothing has panicked. -/
  calm : s.panicked=none
  /-- Who holds the mutex in `enqueue`. -/
  sender : ∀ i,s.outMu=some (.sender i) ↔ (s.senders i).holds=true
  /-- Who holds it in `closeClient`. -/
  closer : ∀ k,s.outMu=some (.closer k) ↔ (s.closers k).holds=true
  /-- Who runs the function of `closeOnce`. -/
  running : ∀ k,s.closeOnce=.running k ↔ (s.closers k).inside=true
  /-- The flags are those of its statement. -/
  flags : (s.done,s.closed,s.outClosed)=progress s
  /-- A sender that has passed the check holds the mutex of an open client. -/
  passed : ∀ i,(s.senders i).passed=true → s.closed=false

section Safety

variable {s t : Sharing} {action : Action}

theorem guarded_newSharing : Guarded newSharing where
  calm := rfl
  sender i := by simp [newSharing,SenderPc.holds]
  closer k := by simp [newSharing,CloserPc.holds]
  running k := by simp [newSharing,CloserPc.inside]
  flags := rfl
  passed i h := by cases h

/-- An open client has an open channel. -/
theorem Guarded.outOpen (h : Guarded s) (hopen : s.closed=false) : s.outClosed=false := by
  have hflags := h.flags
  unfold progress at hflags
  split at hflags
  · exact (Prod.mk.inj (Prod.mk.inj hflags).2).2
  next k hk =>
    cases hpc : s.closers k <;> rw [hpc] at hflags <;>
      simp only [CloserPc.progress,Prod.mk.injEq] at hflags <;> simp_all
  · rw [(Prod.mk.inj (Prod.mk.inj hflags).2).1] at hopen
    cases hopen

/-- The flags while the function of `closeOnce` runs. -/
theorem Guarded.flags_running (h : Guarded s) {k : ℕ} {pc : CloserPc} (hpc : s.closers k=pc)
    (hin : pc.inside=true) :
    s.closeOnce=.running k ∧ (s.done,s.closed,s.outClosed)=pc.progress := by
  have hrunning := (h.running k).mpr (by rw [hpc]; exact hin)
  refine ⟨hrunning,?_⟩
  rw [h.flags,progress,hrunning,← hpc]

/-- A goroutine in `enqueue` goes on without the mutex changing hands. -/
theorem Guarded.moveSender (h : Guarded s) {i : ℕ} {pc : SenderPc}
    (hholds : pc.holds=(s.senders i).holds) (hpassed : pc.passed=true → s.closed=false)
    (out : List Entry) : Guarded ({ s with out := out }.sender i pc) where
  calm := h.calm
  sender j := by
    have hsame : (Function.update s.senders i pc j).holds=(s.senders j).holds :=
      update_field SenderPc.holds hholds j
    exact (h.sender j).trans (by rw [← hsame]; rfl)
  closer := h.closer
  running := h.running
  flags := h.flags
  passed j hj := by
    by_cases heq : j=i
    · rw [heq] at hj
      have hself : (Function.update s.senders i pc i)=pc := Function.update_self _ _ _
      exact hpassed (hself▸hj)
    · have hother : (Function.update s.senders i pc j)=s.senders j :=
        Function.update_of_ne heq _ _
      exact h.passed j (hother▸hj)

/-- The flags after a statement of the goroutine that runs the function of `closeOnce`. -/
theorem Guarded.progress_closer (h : Guarded s) {k : ℕ} {pc pc' : CloserPc}
    (hpc : s.closers k=pc) (hin : pc.inside=true) {t : Sharing} (honce : t.closeOnce=s.closeOnce)
    (hclosers : t.closers=Function.update s.closers k pc') : pc'.progress=progress t := by
  unfold progress
  rw [honce,(h.flags_running hpc hin).1,hclosers]
  dsimp only
  rw [Function.update_self]

/-- Only one goroutine holds the mutex. -/
theorem Guarded.alone (h : Guarded s) {k : ℕ} (hk : (s.closers k).holds=true) (i : ℕ) :
    (s.senders i).holds=false := by
  refine Bool.eq_false_iff.mpr fun hi => ?_
  have hmutex := (h.sender i).mpr hi
  rw [(h.closer k).mpr hk] at hmutex
  cases hmutex

/-- A goroutine that has found the client open holds the mutex. -/
theorem SenderPc.holds_of_passed {pc : SenderPc} (h : pc.passed=true) : pc.holds=true := by
  cases pc <;> first | rfl | cases h

/-- One statement keeps the agreement. -/
theorem guarded_step (h : Guarded s) (hstep : Transition s action t) : Guarded t := by
  have running : ∀ {k pc},pc.inside=(s.closers k).inside →
      ∀ x,s.closeOnce=.running x ↔ (Function.update s.closers k pc x).inside=true := by
    intro k pc hpc x
    rw [update_field CloserPc.inside hpc]
    exact h.running x
  have closer : ∀ {k pc},pc.holds=(s.closers k).holds →
      ∀ x,s.outMu=some (.closer x) ↔ (Function.update s.closers k pc x).holds=true := by
    intro k pc hpc x
    rw [update_field CloserPc.holds hpc]
    exact h.closer x
  have passed : ∀ {k},(s.closers k).holds=true → ∀ i,(s.senders i).passed=true → False := by
    intro k hk i hi
    have hholds := SenderPc.holds_of_passed hi
    rw [h.alone hk i] at hholds
    cases hholds
  cases hstep with
  | call hpc | drop hpc _ _ | giveUp hpc _ | refuse hpc _ =>
    exact h.moveSender (by rw [hpc]; rfl) (fun hpassed => by (cases hpassed)) s.out
  | wait hpc _ _ _ =>
    exact h.moveSender (by rw [hpc]; rfl) (fun _ => h.passed _ (by rw [hpc]; rfl)) s.out
  | pass hpc hopen => exact h.moveSender (by rw [hpc]; rfl) (fun _ => hopen) s.out
  | push hpc _ _ | send hpc _ _ =>
    exact h.moveSender (by rw [hpc]; rfl) (fun hpassed => by (cases hpassed)) _
  | @lock i entry hpc hfree =>
    have hnoSender : ∀ j,(s.senders j).holds=false := fun j => Bool.eq_false_iff.mpr fun hj => by
      rw [← h.sender j,hfree] at hj
      cases hj
    have hnoCloser : ∀ k,(s.closers k).holds=false := fun k => Bool.eq_false_iff.mpr fun hk => by
      rw [← h.closer k,hfree] at hk
      cases hk
    refine ⟨h.calm,fun j => ?_,fun k => ?_,h.running,h.flags,
      fun j hj => h.passed j (of_update (f := SenderPc.passed) rfl hj).2⟩
    · refine Iff.trans ?_ (update_alone (f := SenderPc.holds) hnoSender rfl j)
      exact ⟨fun hmutex => by cases hmutex; rfl,fun heq => by rw [← heq]; rfl⟩
    · refine iff_of_false (fun hmutex => by (cases hmutex)) fun hk => ?_
      rw [Sharing.sender,hnoCloser] at hk
      cases hk
  | @unlock i hpc =>
    have hmutex : s.outMu=some (.sender i) := (h.sender i).mpr (by rw [hpc]; rfl)
    refine ⟨h.calm,fun j => ?_,fun k => ?_,h.running,h.flags,
      fun j hj => h.passed j (of_update (f := SenderPc.passed) rfl hj).2⟩
    · refine iff_of_false (fun hnone => by (cases hnone)) fun hj => ?_
      obtain ⟨hne,hj⟩ := of_update (f := SenderPc.holds) rfl hj
      rw [← h.sender j,hmutex] at hj
      cases hj
      exact hne rfl
    · refine iff_of_false (fun hnone => by (cases hnone)) fun hk => ?_
      rw [Sharing.sender,← h.closer k,hmutex] at hk
      cases hk
  | @close k hpc | @skip k hpc _ =>
    refine ⟨h.calm,h.sender,closer (by rw [hpc]; rfl),running (by rw [hpc]; rfl),?_,h.passed⟩
    have hnot : (s.closers k).inside=false := by
      rw [hpc]
      rfl
    refine h.flags.trans ?_
    unfold progress Sharing.closer
    dsimp only
    cases honce : s.closeOnce with
    | running x =>
      have hne : x≠k := by
        rintro rfl
        rw [(h.running x).mp honce] at hnot
        cases hnot
      dsimp only
      rw [Function.update_of_ne hne]
    | _ => rfl
  | @enter k hpc honce =>
    have hnone : ∀ x,(s.closers x).inside=false := fun x => Bool.eq_false_iff.mpr fun hx => by
      rw [← h.running x,honce] at hx
      cases hx
    refine ⟨h.calm,h.sender,closer (by rw [hpc]; rfl),fun x => ?_,?_,h.passed⟩
    · refine Iff.trans ?_ (update_alone (f := CloserPc.inside) hnone rfl x)
      exact ⟨fun hrun => by cases hrun; rfl,fun heq => by rw [← heq]; rfl⟩
    · refine h.flags.trans ?_
      unfold progress Sharing.closer
      dsimp only
      rw [honce,Function.update_self]
      rfl
  | @closeDone k hpc hdone =>
    have hflags := (h.flags_running hpc rfl).2
    refine ⟨h.calm,h.sender,closer (by rw [hpc]; rfl),running (by rw [hpc]; rfl),?_,h.passed⟩
    refine Eq.trans ?_ (h.progress_closer hpc rfl (by rfl) (by rfl))
    exact Prod.ext rfl (Prod.mk.inj hflags).2
  | @lockClose k hpc hfree =>
    have hnoCloser : ∀ x,(s.closers x).holds=false := fun x => Bool.eq_false_iff.mpr fun hx => by
      rw [← h.closer x,hfree] at hx
      cases hx
    refine ⟨h.calm,fun i => ?_,fun x => ?_,running (by rw [hpc]; rfl),?_,h.passed⟩
    · refine iff_of_false (fun hmutex => by (cases hmutex)) fun hi => ?_
      rw [Sharing.closer,← h.sender i,hfree] at hi
      cases hi
    · refine Iff.trans ?_ (update_alone (f := CloserPc.holds) hnoCloser rfl x)
      exact ⟨fun hmutex => by cases hmutex; rfl,fun heq => by rw [← heq]; rfl⟩
    · refine Eq.trans ?_ (h.progress_closer hpc rfl (by rfl) (by rfl))
      exact (h.flags_running hpc rfl).2
  | @mark k hpc =>
    have hflags := (h.flags_running hpc rfl).2
    refine ⟨h.calm,h.sender,closer (by rw [hpc]; rfl),running (by rw [hpc]; rfl),?_,fun i hi => ?_⟩
    · refine Eq.trans ?_ (h.progress_closer hpc rfl (by rfl) (by rfl))
      exact Prod.ext (Prod.mk.inj hflags).1 (Prod.ext rfl (Prod.mk.inj (Prod.mk.inj hflags).2).2)
    · exact (passed (k := k) (by rw [hpc]; rfl) i hi).elim
  | @closeOut k hpc hopen =>
    have hflags := (h.flags_running hpc rfl).2
    refine ⟨h.calm,h.sender,closer (by rw [hpc]; rfl),running (by rw [hpc]; rfl),?_,h.passed⟩
    refine Eq.trans ?_ (h.progress_closer hpc rfl (by rfl) (by rfl))
    exact Prod.ext (Prod.mk.inj hflags).1 (Prod.ext (Prod.mk.inj (Prod.mk.inj hflags).2).1 rfl)
  | @closeConn k hpc =>
    refine ⟨h.calm,h.sender,closer (by rw [hpc]; rfl),running (by rw [hpc]; rfl),?_,h.passed⟩
    refine Eq.trans ?_ (h.progress_closer hpc rfl (by rfl) (by rfl))
    exact (h.flags_running hpc rfl).2
  | @unlockClose k hpc =>
    have hmutex : s.outMu=some (.closer k) := (h.closer k).mpr (by rw [hpc]; rfl)
    refine ⟨h.calm,fun i => ?_,fun x => ?_,running (by rw [hpc]; rfl),?_,h.passed⟩
    · refine iff_of_false (fun hnone => by (cases hnone)) fun hi => ?_
      rw [Sharing.closer,← h.sender i,hmutex] at hi
      cases hi
    · refine iff_of_false (fun hnone => by (cases hnone)) fun hx => ?_
      obtain ⟨hne,hx⟩ := of_update (f := CloserPc.holds) rfl hx
      rw [← h.closer x,hmutex] at hx
      cases hx
      exact hne rfl
    · refine Eq.trans ?_ (h.progress_closer hpc rfl (by rfl) (by rfl))
      exact (h.flags_running hpc rfl).2
  | @leave k hpc =>
    obtain ⟨honce,hflags⟩ := h.flags_running hpc rfl
    refine ⟨h.calm,h.sender,closer (by rw [hpc]; rfl),fun x => ?_,hflags,h.passed⟩
    refine iff_of_false (fun hover => by (cases hover)) fun hx => ?_
    obtain ⟨hne,hx⟩ := of_update (f := CloserPc.inside) rfl hx
    rw [← h.running x,honce] at hx
    cases hx
    exact hne rfl
  | receive => exact ⟨h.calm,h.sender,h.closer,h.running,h.flags,h.passed⟩
  | @sendPanic _ i entry hpc hclosed =>
    have hopen : s.closed=false := by
      refine h.passed i ?_
      rcases hpc with hpc | hpc <;> rw [hpc] <;> rfl
    rw [h.outOpen hopen] at hclosed
    cases hclosed
  | @donePanic _ k hpc hdone =>
    have hflags := (h.flags_running hpc rfl).2
    rw [hdone] at hflags
    cases (Prod.mk.inj hflags).1
  | @outPanic _ k hpc hclosed =>
    have hflags := (h.flags_running hpc rfl).2
    rw [hclosed] at hflags
    cases (Prod.mk.inj (Prod.mk.inj hflags).2).2

/-- The agreement holds in every state of every run. -/
theorem guarded_run {trace : List (Sharing×Action)} (run : Run step newSharing trace s) :
    Guarded s :=
  run.invariant guarded_newSharing fun _ _ _ hguarded henabled =>
    guarded_step hguarded (step_transition henabled).2

end Safety

section Progress

variable {s t : Sharing} {action : Action}

/-- The statements of a goroutine in `enqueue`. -/
def ofSender (i : ℕ) (action : Action) : Prop :=
  action=.lock i ∨ action=.check i ∨ action=.trySend i ∨ action=.send i ∨ action=.giveUp i ∨
    action=.unlock i

/-- The statements of a goroutine in `closeClient`. -/
def ofCloser (k : ℕ) (action : Action) : Prop :=
  action=.enter k ∨ action=.closeDone k ∨ action=.lockClose k ∨ action=.mark k ∨
    action=.closeOut k ∨ action=.closeConn k ∨ action=.unlockClose k ∨ action=.leave k

/-- `closeClient` was called. -/
def BeingClosed (s : Sharing) : Prop := s.closeOnce≠.fresh ∨ ∃ k,s.closers k≠.idle

/-- A goroutine that waits goes on waiting or is about to return. -/
theorem waiting_step {i : ℕ} {entry : Entry} (hwait : s.senders i=.waiting entry)
    (h : Transition s action t) : t.senders i=.waiting entry ∨ t.senders i=.unlocking := by
  cases h with
  | call hpc | lock hpc | refuse hpc | pass hpc | push hpc | drop hpc | wait hpc | unlock hpc =>
    exact .inl (update_other hwait (by rw [hpc]; simp))
  | @send j _ _ _ _ | @giveUp j _ _ _ =>
    by_cases hij : i=j
    · rw [hij]
      exact .inr (Function.update_self _ _ _)
    · refine .inl ?_
      have hkept : Function.update s.senders j .unlocking i=s.senders i :=
        Function.update_of_ne hij _ _
      exact hkept.trans hwait
  | _ => exact .inl hwait

theorem unlocking_step {i : ℕ} (hpc' : s.senders i=.unlocking) (h : Transition s action t) :
    t.senders i=.unlocking ∨ t.senders i=.idle := by
  cases h with
  | call hpc | lock hpc | refuse hpc | pass hpc | push hpc | drop hpc | wait hpc | send hpc
    | giveUp hpc => exact .inl (update_other hpc' (by rw [hpc]; simp))
  | @unlock j _ =>
    by_cases hij : i=j
    · rw [hij]
      exact .inr (Function.update_self _ _ _)
    · refine .inl ?_
      have hkept : Function.update s.senders j .idle i=s.senders i :=
        Function.update_of_ne hij _ _
      exact hkept.trans hpc'
  | _ => exact .inl hpc'

/-- `done` stays closed. -/
theorem done_step (hdone : s.done=true) (h : Transition s action t) : t.done=true := by
  cases h with
  | closeDone => rfl
  | _ => exact hdone

theorem entering_step {k : ℕ} (hpc' : s.closers k=.entering) (hfresh : s.closeOnce=.fresh)
    (h : Transition s action t) : t.closers k=.entering ∨ t.closeOnce≠.fresh := by
  cases h with
  | close hpc | closeDone hpc | lockClose hpc | mark hpc | closeOut hpc | closeConn hpc
    | unlockClose hpc | leave hpc => exact .inl (update_other hpc' (by rw [hpc]; simp))
  | enter =>
    refine .inr fun hnone => ?_
    cases hnone
  | skip _ honce =>
    rw [hfresh] at honce
    cases honce
  | _ => exact .inl hpc'

variable {schedule : Schedule step newSharing}

/-- A goroutine that waits while `done` is closed comes back from the select. -/
theorem waiting_leadsTo {i : ℕ} {entry : Entry} {n : ℕ}
    (hfair : Fair schedule (ofSender i))
    (h : (schedule.state n).senders i=.waiting entry ∧ (schedule.state n).done=true) :
    Eventually schedule (fun s => s.senders i=.unlocking) n := by
  refine hfair.leadsTo (I := Guarded)
    (P := fun s => s.senders i=.waiting entry ∧ s.done=true) (fun _ _ => guarded_run) ?_ ?_ ?_ h
  · rintro s hguarded ⟨hwait,hdone⟩
    refine ⟨.giveUp i,s.sender i .unlocking,.inr (.inr (.inr (.inr (.inl rfl)))),?_⟩
    simp only [step,hguarded.calm,if_true,stepSender,hwait,hdone]
  · rintro s a t - ⟨hwait,hdone⟩ hstep
    have h := (step_transition hstep).2
    rcases waiting_step hwait h with hstill | hunlocking
    · exact .inl ⟨hstill,done_step hdone h⟩
    · exact .inr hunlocking
  · rintro s a t hguarded ⟨hwait,-⟩ hgroup hstep
    have h := (step_transition hstep).2
    have hcalm := (guarded_step hguarded h).calm
    rcases waiting_step hwait h with hstill | hunlocking
    · rcases hgroup with rfl | rfl | rfl | rfl | rfl | rfl <;>
        simp only [step,hguarded.calm,if_true,stepSender,hwait] at hstep
      all_goals
        first
        | cases hstep
        | skip
      · unfold sendWaiting at hstep
        split at hstep
        · cases hstep
          cases hcalm
        · split at hstep <;> cases hstep
          exact Function.update_self _ _ _
      · split at hstep <;> cases hstep
        exact Function.update_self _ _ _
    · exact hunlocking

/-- What is about to return returns. -/
theorem unlocking_leadsTo {i : ℕ} {n : ℕ} (hfair : Fair schedule (ofSender i))
    (h : (schedule.state n).senders i=.unlocking) :
    Eventually schedule (fun s => s.senders i=.idle) n := by
  refine hfair.leadsTo (I := Guarded) (P := fun s => s.senders i=.unlocking)
    (fun _ _ => guarded_run) ?_ ?_ ?_ h
  · intro s hguarded hpc
    refine ⟨.unlock i,{ s with outMu := none }.sender i .idle,
      .inr (.inr (.inr (.inr (.inr rfl)))),?_⟩
    simp only [step,hguarded.calm,if_true,stepSender,hpc]
  · intro s a t _ hpc hstep
    exact unlocking_step hpc (step_transition hstep).2
  · intro s a t hguarded hpc hgroup hstep
    rcases hgroup with rfl | rfl | rfl | rfl | rfl | rfl <;>
      simp only [step,hguarded.calm,if_true,stepSender,hpc] at hstep
    all_goals cases hstep
    exact Function.update_self _ _ _

theorem closingDone_step {k : ℕ} (hpc' : s.closers k=.closingDone)
    (h : Transition s action t) : t.closers k=.closingDone ∨ t.done=true := by
  cases h with
  | close hpc | enter hpc | skip hpc | lockClose hpc | mark hpc | closeOut hpc | closeConn hpc
    | unlockClose hpc | leave hpc => exact .inl (update_other hpc' (by rw [hpc]; simp))
  | closeDone => exact .inr rfl
  | _ => exact .inl hpc'

/-- The goroutine in the function of `closeOnce` closes `done`. -/
theorem closingDone_leadsTo {k : ℕ} {n : ℕ} (hfair : Fair schedule (ofCloser k))
    (h : (schedule.state n).closers k=.closingDone) :
    Eventually schedule (fun s => s.done=true) n := by
  have hopen : ∀ s,Guarded s → s.closers k=.closingDone → s.done=false := by
    intro s hguarded hpc
    exact (Prod.mk.inj (hguarded.flags_running hpc rfl).2).1
  refine hfair.leadsTo (I := Guarded) (P := fun s => s.closers k=.closingDone)
    (fun _ _ => guarded_run) ?_ ?_ ?_ h
  · intro s hguarded hpc
    refine ⟨.closeDone k,{ s with done := true }.closer k .locking,.inr (.inl rfl),?_⟩
    simp only [step,hguarded.calm,if_true,stepCloser,hpc,hopen s hguarded hpc]
    rfl
  · intro s a t _ hpc hstep
    exact closingDone_step hpc (step_transition hstep).2
  · intro s a t hguarded hpc hgroup hstep
    rcases hgroup with rfl | rfl | rfl | rfl | rfl | rfl | rfl | rfl <;>
      simp [step,hguarded.calm,stepCloser,hpc,hopen s hguarded hpc] at hstep
    rw [← hstep]
    rfl

/-- The first call of `closeClient` begins the function of `closeOnce`. -/
theorem entering_leadsTo {k : ℕ} {n : ℕ} (hfair : Fair schedule (ofCloser k))
    (h : (schedule.state n).closers k=.entering ∧ (schedule.state n).closeOnce=.fresh) :
    Eventually schedule (fun s => s.closeOnce≠.fresh) n := by
  refine hfair.leadsTo (I := Guarded)
    (P := fun s => s.closers k=.entering ∧ s.closeOnce=.fresh) (fun _ _ => guarded_run)
    ?_ ?_ ?_ h
  · rintro s hguarded ⟨hpc,hfresh⟩
    refine ⟨.enter k,{ s with closeOnce := .running k }.closer k .closingDone,.inl rfl,?_⟩
    simp only [step,hguarded.calm,if_true,stepCloser,hpc,hfresh]
  · rintro s a t - ⟨hpc,hfresh⟩ hstep
    rcases entering_step hpc hfresh (step_transition hstep).2 with hstill | hbegun
    · by_cases hnone : t.closeOnce=.fresh
      · exact .inl ⟨hstill,hnone⟩
      · exact .inr hnone
    · exact .inr hbegun
  · rintro s a t hguarded ⟨hpc,hfresh⟩ hgroup hstep
    rcases hgroup with rfl | rfl | rfl | rfl | rfl | rfl | rfl | rfl <;>
      simp [step,hguarded.calm,stepCloser,hpc,hfresh] at hstep
    rw [← hstep]
    exact Once.noConfusion

/-- Once the function of `closeOnce` has begun, `done` is closed in the end. -/
theorem begun_leadsTo {n : ℕ} (hfair : ∀ k,Fair schedule (ofCloser k))
    (h : (schedule.state n).closeOnce≠.fresh) :
    Eventually schedule (fun s => s.done=true) n := by
  obtain ⟨trace,run⟩ := schedule.reached n
  have hguarded := guarded_run run
  cases honce : (schedule.state n).closeOnce with
  | fresh => exact absurd honce h
  | running k =>
    have hinside := (hguarded.running k).mp honce
    have hflags := (hguarded.flags_running rfl hinside).2
    cases hpc : (schedule.state n).closers k with
    | closingDone => exact closingDone_leadsTo (hfair k) hpc
    | idle | entering =>
      rw [hpc] at hinside
      cases hinside
    | locking | marking | closingOut | closingConn | unlocking | leaving =>
      rw [hpc] at hflags
      exact ⟨n,Nat.le_refl n,(Prod.mk.inj hflags).1⟩
  | «over» =>
    have hflags := hguarded.flags
    rw [progress,honce] at hflags
    exact ⟨n,Nat.le_refl n,(Prod.mk.inj hflags).1⟩

/-- A client that is being closed has its `done` closed in the end. -/
theorem beingClosed_leadsTo {n : ℕ} (hfair : ∀ k,Fair schedule (ofCloser k))
    (h : BeingClosed (schedule.state n)) : Eventually schedule (fun s => s.done=true) n := by
  by_cases hfresh : (schedule.state n).closeOnce=.fresh
  · obtain ⟨k,hk⟩ := h.resolve_left fun hbegun => hbegun hfresh
    obtain ⟨trace,run⟩ := schedule.reached n
    have hguarded := guarded_run run
    have houtside : ((schedule.state n).closers k).inside=false :=
      Bool.eq_false_iff.mpr fun hinside => by
        rw [← hguarded.running k,hfresh] at hinside
        cases hinside
    have hentering : (schedule.state n).closers k=.entering := by
      cases hpc : (schedule.state n).closers k <;> rw [hpc] at hk houtside <;>
        first
        | rfl
        | exact absurd rfl hk
        | cases houtside
    exact (entering_leadsTo (hfair k) ⟨hentering,hfresh⟩).trans fun m hm => begun_leadsTo hfair hm
  · exact begun_leadsTo hfair hfresh

/-- A sender that waits returns when the client is closed. -/
theorem waiting_returns {i : ℕ} {entry : Entry} {n : ℕ} (hsender : Fair schedule (ofSender i))
    (hcloser : ∀ k,Fair schedule (ofCloser k)) (hwait : (schedule.state n).senders i=.waiting entry)
    (hclosed : BeingClosed (schedule.state n)) :
    Eventually schedule (fun s => s.senders i=.idle) n := by
  refine Eventually.trans (P := fun s => s.senders i=.unlocking) ?_
    fun m hm => unlocking_leadsTo hsender hm
  by_contra hnever
  obtain ⟨m,hnm,hdone⟩ := beingClosed_leadsTo hcloser hclosed
  have hstill : (schedule.state m).senders i=.waiting entry :=
    schedule.stays (I := fun _ => True) (P := fun s => s.senders i=.waiting entry)
      (fun _ _ _ => trivial)
      (fun _ _ _ _ hpc hstep => waiting_step hpc (step_transition hstep).2) hwait hnever m hnm
  obtain ⟨k,hmk,hreturn⟩ := waiting_leadsTo hsender ⟨hstill,hdone⟩
  exact hnever ⟨k,Nat.le_trans hnm hmk,hreturn⟩

/-- Neither channel of the client is used after it was closed, and a sender that waits for
room returns when the client is closed. -/
theorem closing_never_panics {trace : List (Sharing×Action)} {last : Sharing}
    (run : Run step newSharing trace last) :
    Always (fun s => s.panicked=none) trace last ∧
      ∀ (schedule : Schedule step newSharing),(∀ i,Fair schedule (ofSender i)) →
        (∀ k,Fair schedule (ofCloser k)) → ∀ n i entry,
        (schedule.state n).senders i=.waiting entry → BeingClosed (schedule.state n) →
        Eventually schedule (fun s => s.senders i=.idle) n :=
  ⟨run.always_of_last fun run => (guarded_run run).calm,
    fun _ hsender hcloser _ i _ hwait hclosed =>
      waiting_returns (hsender i) hcloser hwait hclosed⟩

end Progress

section Full

/-- A record that waits for room. -/
def sampleEntry : Entry := ⟨⟨samplePacket waTypeAnnounce 0,0,0⟩,false⟩

/-- The client with a queue of so many records and nobody in the two functions. -/
def queued (n : ℕ) : Sharing := { newSharing with out := List.replicate n sampleEntry }

theorem queued_succ {n : ℕ} (hspace : n<defaultOutQueue) :
    exec step (queued n) [.call 0 sampleEntry,.lock 0,.check 0,.trySend 0,.unlock 0]=
      some (queued (n+1)) := by
  simp [exec,step,stepSender,queued,newSharing,Sharing.sender,trySend,hspace,
    List.replicate_succ']

/-- Senders fill the queue. -/
theorem queued_run {n : ℕ} (hn : n≤defaultOutQueue) :
    ∃ trace,Run step newSharing trace (queued n) := by
  induction n with
  | zero => exact ⟨[],.nil⟩
  | succ n ih =>
    obtain ⟨trace,run⟩ := ih (Nat.le_of_succ_le hn)
    exact run.exec (queued_succ hn)

/-- The queue is full, a sender waits for room, and `closeClient` was called. -/
def fullAndClosing : Sharing :=
  ({ queued defaultOutQueue with outMu := some (.sender 0) }.sender 0
    (.waiting sampleEntry)).closer 0 .entering

/-- Both calls have returned. -/
def fullAndClosed : Sharing :=
  { queued defaultOutQueue with
    outClosed := true
    done := true
    closed := true
    connClosed := true
    closeOnce := .over }

theorem fullAndClosing_reached : exec step (queued defaultOutQueue)
    [.call 0 sampleEntry,.lock 0,.check 0,.trySend 0,.close 0]=some fullAndClosing := by
  have hcontrol : (parseHeader sampleEntry.sent.raw).typ≠waTypeData := by decide
  simp [exec,step,stepSender,stepCloser,queued,newSharing,Sharing.sender,Sharing.closer,trySend,
    hcontrol,fullAndClosing]

theorem fullAndClosed_reached : exec step fullAndClosing
    [.enter 0,.closeDone 0,.giveUp 0,.unlock 0,.lockClose 0,.mark 0,.closeOut 0,.closeConn 0,
      .unlockClose 0,.leave 0]=some fullAndClosed := by
  simp [exec,step,stepSender,stepCloser,queued,newSharing,Sharing.sender,Sharing.closer,
    fullAndClosing,fullAndClosed]

/-- At the end nobody is in the two functions. -/
theorem fullAndClosed_senders (i : ℕ) (action : Action) (h : ofSender i action) :
    step fullAndClosed action=none := by
  rcases h with rfl | rfl | rfl | rfl | rfl | rfl <;> rfl

theorem fullAndClosed_closers (k : ℕ) (action : Action) (h : ofCloser k action) :
    step fullAndClosed action=none := by
  rcases h with rfl | rfl | rfl | rfl | rfl | rfl | rfl | rfl <;> rfl

theorem closing_never_panics_full : ∃ schedule : Schedule step newSharing,
    (∀ i,Fair schedule (ofSender i)) ∧ (∀ k,Fair schedule (ofCloser k)) ∧
    ∃ n,(schedule.state n).senders 0=.waiting sampleEntry ∧
      (schedule.state n).out.length=defaultOutQueue ∧ BeingClosed (schedule.state n) ∧
      Eventually schedule (fun s => s.senders 0=.idle) n := by
  obtain ⟨_,run⟩ := queued_run (Nat.le_refl defaultOutQueue)
  obtain ⟨trace,run⟩ := run.exec fullAndClosing_reached
  obtain ⟨_,run',hsame⟩ := stateAt_exec run fullAndClosed_reached
  have hsender : ∀ i,Fair (Schedule.ofRun run') (ofSender i) := fun i =>
    Schedule.ofRun_fair run' (fullAndClosed_senders i)
  have hcloser : ∀ k,Fair (Schedule.ofRun run') (ofCloser k) := fun k =>
    Schedule.ofRun_fair run' (fullAndClosed_closers k)
  have hstate : (Schedule.ofRun run').state trace.length=fullAndClosing :=
    (hsame _ (Nat.le_refl _)).trans (stateAt_of_length_le (Nat.le_refl _))
  have hwait : ((Schedule.ofRun run').state trace.length).senders 0=.waiting sampleEntry := by
    rw [hstate]
    rfl
  have hclosing : BeingClosed ((Schedule.ofRun run').state trace.length) := by
    rw [hstate]
    exact .inr ⟨0,by decide⟩
  refine ⟨Schedule.ofRun run',hsender,hcloser,trace.length,hwait,?_,hclosing,?_⟩
  · rw [hstate]
    exact List.length_replicate
  · exact (closing_never_panics run').2 _ hsender hcloser _ 0 sampleEntry hwait hclosing

end Full

end ChisLink.RelayServerClosing
