import Mathlib.Data.Int.Notation
import Mathlib.Data.List.Basic
import Mathlib.Logic.Function.Basic
import ChisLink.LabelledRuns

/-!
# The stack of serial handlers

The runtime keeps the handlers of the serial interrupt in an array with a depth. The
program pushes, pops and replaces them; the calls to the functions `on_enter` and
`on_leave` follow after the interrupts are unlocked, so that a word may arrive before
them. In every interleaving the calls are nested as the stack is, and a word is answered
by the topmost handler that has a function for it. All built-in idle handlers answer
with one variable.
-/

namespace ChisLink.SioHandlers

open LabelledRuns

/-- Number of handlers in the array. -/
def clSioHandlerMaxDepth : ℕ := 4

/-- The function `on_word` of a handler, over the state of the contexts. -/
inductive OnWord (W : Type) where
  /-- The function `idle_on_word` with the address of `idle_copy`. -/
  | idle
  /-- A function of the program: its answer, and what it passes to
  `cl_gba_sio_set_irq_rearm` if it calls it. -/
  | code (f : UInt32 → W → (UInt32×Option Bool)×W)

/-- The struct `cl_sio_handler_t` with the context inside its functions. -/
structure Handler (W : Type) where
  /-- Called with every word. -/
  onWord : Option (OnWord W)
  /-- Called after the handler was activated. -/
  onEnter : Option (W → W)
  /-- Called after it was taken away. -/
  onLeave : Option (W → W)

/-- A call that follows a change of the stack, left out for a null pointer. -/
inductive Call (W : Type) where
  /-- The function `on_enter` of a handler. -/
  | enter (h : Handler W)
  /-- The function `on_leave` of a handler. -/
  | leave (h : Handler W)

/-- The registers of the serial port. -/
structure Port where
  /-- The register `SIODATA32`. -/
  data : UInt32
  /-- The bit `CL_GBA_SIO_START`. -/
  start : Bool
  /-- The bit `CL_GBA_SIO_SO_HIGH`. -/
  soHigh : Bool

/-- The variables of the runtime, the port and the state of the contexts. -/
structure Sio (W : Type) where
  /-- The array `g_handler_stack`. -/
  handlerStack : ℕ → Handler W
  /-- The variable `g_handler_depth`. -/
  handlerDepth : ℕ
  /-- The variable `g_sio_idle_word`. -/
  idleWord : UInt32
  /-- The variable `idle_copy` of `cl_sio_handler_push_idle`. -/
  idleCopy : UInt32
  /-- The variable `g_sio_irq_rearm`. -/
  irqRearm : Bool
  /-- The function that replaces the interrupt vector. -/
  direct : Option (Port → W → Port×W)
  /-- The port. -/
  port : Port
  /-- The state of the contexts. -/
  world : W
  /-- The calls that the program is about to make. -/
  pending : List (Call W)
  /-- The calls made so far. -/
  calls : List (Call W)

variable {W : Type}

/-- Make a call. -/
def Call.perform : Call W → W → W
  | .enter h,w => (h.onEnter.getD id) w
  | .leave h,w => (h.onLeave.getD id) w

/-- The function `cl_sio_handler_push` up to its call. -/
def clSioHandlerPush (h : Handler W) (s : Sio W) : ℤ×Sio W :=
  if s.handlerDepth≥clSioHandlerMaxDepth then (-1,s)
  else
    (s.handlerDepth+1,
      {s with
        handlerStack := Function.update s.handlerStack s.handlerDepth h
        handlerDepth := s.handlerDepth+1
        pending := [.enter h]})

/-- The function `cl_sio_handler_pop` up to its call. -/
def clSioHandlerPop (s : Sio W) : ℤ×Sio W :=
  match s.handlerDepth with
  | 0 => (-1,s)
  | depth+1 => (depth,{s with handlerDepth := depth,pending := [.leave (s.handlerStack depth)]})

/-- The function `cl_sio_handler_replace` up to its calls. -/
def clSioHandlerReplace (h : Handler W) (s : Sio W) : Sio W :=
  match s.handlerDepth with
  | 0 =>
    {s with
      handlerStack := Function.update s.handlerStack 0 h
      handlerDepth := 1
      pending := [.enter h]}
  | depth+1 =>
    {s with
      handlerStack := Function.update s.handlerStack depth h
      pending := [.leave (s.handlerStack depth),.enter h]}

/-- The handler that `cl_sio_handler_push_idle` builds. -/
def idleHandler : Handler W := ⟨some .idle,none,none⟩

/-- The function `cl_gba_sio_send32`. -/
def clGbaSioSend32 (word : UInt32) (s : Sio W) : Sio W :=
  {s with port := {data := word,start := true,soHigh := true}}

/-- The function `cl_gba_sio_disarm`. -/
def clGbaSioDisarm (s : Sio W) : Sio W :=
  {s with port := {s.port with start := false,soHigh := true}}

/-- Call a function for a word. -/
def OnWord.run (f : OnWord W) (word : UInt32) (s : Sio W) : UInt32×Sio W :=
  match f with
  | .idle => (s.idleCopy,s)
  | .code f =>
    let reply := f word s.world
    (reply.1.1,{s with world := reply.2,irqRearm := reply.1.2.getD s.irqRearm})

/-- The loop of `cl_gba_sio_irq_dispatch` from a depth down. -/
def dispatchLoop (word : UInt32) (s : Sio W) : ℕ → UInt32×Sio W
  | 0 => (s.idleWord,s)
  | d+1 =>
    match (s.handlerStack d).onWord with
    | some f => f.run word s
    | none => dispatchLoop word s d

/-- The function `cl_gba_sio_irq_dispatch`. -/
def clGbaSioIrqDispatch (s : Sio W) : Sio W :=
  let reply := dispatchLoop s.port.data {s with irqRearm := true} s.handlerDepth
  if reply.2.irqRearm then clGbaSioSend32 reply.1 reply.2
  else clGbaSioDisarm {reply.2 with port := {reply.2.port with data := reply.1}}

/-- The serial interrupt after a word was exchanged: through the vector that is set. -/
def serialIrq (word : UInt32) (s : Sio W) : Sio W :=
  let s := {s with port := {s.port with data := word,start := false}}
  match s.direct with
  | some handler =>
    let reply := handler s.port s.world
    {s with port := reply.1,world := reply.2}
  | none => clGbaSioIrqDispatch s

/-- The functions that the program calls. -/
inductive Op (W : Type) where
  /-- Push a handler. -/
  | push (h : Handler W)
  /-- Pop a handler; `cl_sio_handler_clear` pops while there is one. -/
  | pop
  /-- Replace the top one, as `cl_gba_sio_set_callback` does. -/
  | replace (h : Handler W)
  /-- Set the word for an empty stack. -/
  | setIdleWord (word : UInt32)
  /-- Set the word of the built-in handlers. -/
  | setIdleCopy (word : UInt32)
  /-- Set the vector, or restore it with a null pointer or `restore_dispatch`. -/
  | setDirect (handler : Option (Port → W → Port×W))

/-- What they do up to their calls. -/
def Op.run : Op W → Sio W → Sio W
  | .push h,s => (clSioHandlerPush h s).2
  | .pop,s => (clSioHandlerPop s).2
  | .replace h,s => clSioHandlerReplace h s
  | .setIdleWord word,s => {s with idleWord := word}
  | .setIdleCopy word,s => {s with idleCopy := word}
  | .setDirect handler,s => {s with direct := handler}

/-- The function `cl_sio_handler_push_idle`, where interrupts may come in between. -/
def clSioHandlerPushIdle (word : UInt32) : List (Op W) :=
  [.setIdleWord word,.setIdleCopy word,.push idleHandler]

/-- The steps of the program, and the interrupt between them. -/
inductive Action (W : Type) where
  /-- A function up to its calls. -/
  | op (op : Op W)
  /-- The next of the calls. -/
  | call
  /-- A word is exchanged. -/
  | irq (word : UInt32)

/-- One step. The program makes its calls before it goes on. -/
def step (s : Sio W) : Action W → Option (Sio W)
  | .op op => if s.pending.isEmpty then some (op.run s) else none
  | .call => s.pending.head?.map fun c =>
    {s with world := c.perform s.world,pending := s.pending.tail,calls := s.calls++[c]}
  | .irq word => some (serialIrq word s)

/-- The runtime before any call. -/
def start (memory : Handler W) (port : Port) (world : W) : Sio W where
  handlerStack _ := memory
  handlerDepth := 0
  idleWord := 0
  idleCopy := 0
  irqRearm := true
  direct := none
  port := port
  world := world
  pending := []
  calls := []

/-- The first handlers of the array, the topmost last. -/
def activeOf (stack : ℕ → Handler W) (depth : ℕ) : List (Handler W) :=
  (List.range depth).map stack

/-- The handlers that are active. -/
def Sio.active (s : Sio W) : List (Handler W) := activeOf s.handlerStack s.handlerDepth

/-- Calls that leave these handlers entered: each is left as the last one entered. -/
inductive Nested : List (Call W) → List (Handler W) → Prop where
  /-- No calls. -/
  | nil : Nested [] []
  /-- One more is entered. -/
  | enter {calls : List (Call W)} {active : List (Handler W)} (h : Handler W) :
      Nested calls active → Nested (calls++[.enter h]) (active++[h])
  /-- The last one is left. -/
  | leave {calls : List (Call W)} {active : List (Handler W)} (h : Handler W) :
      Nested calls (active++[h]) → Nested (calls++[.leave h]) active

section Stack

variable {s t : Sio W} {h : Handler W}

theorem activeOf_succ (stack : ℕ → Handler W) (depth : ℕ) :
    activeOf stack (depth+1)=activeOf stack depth++[stack depth] := by
  unfold activeOf
  rw [List.range_succ,List.map_append]
  rfl

/-- A handler stored above the active ones becomes the topmost. -/
theorem activeOf_update (stack : ℕ → Handler W) (depth : ℕ) (h : Handler W) :
    activeOf (Function.update stack depth h) (depth+1)=activeOf stack depth++[h] := by
  rw [activeOf_succ,Function.update_self]
  congr 1
  refine List.map_congr_left fun i hi => ?_
  exact Function.update_of_ne (Nat.ne_of_lt (List.mem_range.mp hi)) h stack

/-- What a word changes is neither the stack nor the calls. -/
structure SameStack (s t : Sio W) : Prop where
  /-- The array. -/
  handlerStack : t.handlerStack=s.handlerStack
  /-- The depth. -/
  handlerDepth : t.handlerDepth=s.handlerDepth
  /-- The word of the idle handlers. -/
  idleCopy : t.idleCopy=s.idleCopy
  /-- The calls to come. -/
  pending : t.pending=s.pending
  /-- The calls made. -/
  calls : t.calls=s.calls

theorem SameStack.active_eq (h : SameStack s t) : t.active=s.active := by
  unfold Sio.active
  rw [h.handlerStack,h.handlerDepth]

theorem sameStack_dispatchLoop (word : UInt32) (d : ℕ) :
    SameStack s (dispatchLoop word s d).2 := by
  induction d with
  | zero => exact ⟨rfl,rfl,rfl,rfl,rfl⟩
  | succ d ih =>
    unfold dispatchLoop
    cases (s.handlerStack d).onWord with
    | none => exact ih
    | some f => cases f <;> exact ⟨rfl,rfl,rfl,rfl,rfl⟩

theorem sameStack_serialIrq (word : UInt32) : SameStack s (serialIrq word s) := by
  unfold serialIrq
  dsimp only
  split
  · exact ⟨rfl,rfl,rfl,rfl,rfl⟩
  · obtain ⟨hstack,hdepth,hidle,hpending,hcalls⟩ :=
      sameStack_dispatchLoop (s := {s with
        port := {s.port with data := word,start := false},irqRearm := true}) word s.handlerDepth
    unfold clGbaSioIrqDispatch
    dsimp only
    split <;> exact ⟨hstack,hdepth,hidle,hpending,hcalls⟩

/-- The depth is within the array, and the calls made and to come are nested. -/
def Inv (s : Sio W) : Prop :=
  s.handlerDepth≤ clSioHandlerMaxDepth ∧ Nested (s.calls++s.pending) s.active

theorem SameStack.inv (h : SameStack s t) (hinv : Inv s) : Inv t := by
  unfold Inv
  rw [h.handlerDepth,h.calls,h.pending,h.active_eq]
  exact hinv

variable (hinv : Inv s) (hpending : s.pending=[])
include hinv hpending

theorem inv_push (h : Handler W) : Inv (clSioHandlerPush h s).2 := by
  obtain ⟨hdepth,hnested⟩ := hinv
  unfold clSioHandlerPush
  split
  next => exact ⟨hdepth,hnested⟩
  next hroom =>
    rw [hpending,List.append_nil] at hnested
    refine ⟨Nat.lt_of_not_le hroom,?_⟩
    change Nested _ (activeOf (Function.update s.handlerStack _ h) _)
    rw [activeOf_update]
    exact hnested.enter h

theorem inv_pop : Inv (clSioHandlerPop s).2 := by
  obtain ⟨hdepth,hnested⟩ := hinv
  unfold clSioHandlerPop
  split
  next => exact ⟨hdepth,hnested⟩
  next depth hd =>
    unfold Sio.active at hnested
    rw [hpending,List.append_nil,hd,activeOf_succ] at hnested
    exact ⟨Nat.le_of_succ_le (hd▸hdepth),hnested.leave (s.handlerStack depth)⟩

/-- A replaced handler is left before the new one is entered. -/
theorem inv_replace (h : Handler W) : Inv (clSioHandlerReplace h s) := by
  obtain ⟨hdepth,hnested⟩ := hinv
  unfold Sio.active at hnested
  rw [hpending,List.append_nil] at hnested
  unfold clSioHandlerReplace
  split
  next hd =>
    rw [hd] at hnested
    refine ⟨Nat.one_le_iff_ne_zero.mpr (by decide : clSioHandlerMaxDepth≠0),?_⟩
    change Nested _ (activeOf (Function.update s.handlerStack 0 h) (0+1))
    rw [activeOf_update]
    exact hnested.enter h
  next depth hd =>
    rw [hd,activeOf_succ] at hnested
    refine ⟨hdepth,?_⟩
    change Nested _ (activeOf (Function.update s.handlerStack depth h) s.handlerDepth)
    rw [hd,activeOf_update]
    simpa using (hnested.leave (s.handlerStack depth)).enter h

end Stack

theorem enabled_op {s t : Sio W} {op : Op W} (h : step s (.op op)=some t) :
    s.pending=[] ∧ op.run s=t := by
  simpa only [step,Option.ite_none_right_eq_some,List.isEmpty_iff,Option.some.injEq] using h

theorem enabled_call {s t : Sio W} (h : step s .call=some t) :
    ∃ c rest,s.pending=c::rest ∧
      t={s with world := c.perform s.world,pending := rest,calls := s.calls++[c]} := by
  unfold step at h
  cases hpending : s.pending with
  | nil => simp [hpending] at h
  | cons c rest =>
    simp only [hpending,List.head?_cons,List.tail_cons,Option.map_some,Option.some.injEq] at h
    exact ⟨c,rest,rfl,h.symm⟩

theorem inv_step {s t : Sio W} {action : Action W} (hinv : Inv s)
    (henabled : step s action=some t) : Inv t := by
  cases action with
  | irq word =>
    cases henabled
    exact (sameStack_serialIrq word).inv hinv
  | call =>
    obtain ⟨hdepth,hnested⟩ := hinv
    obtain ⟨c,rest,hpending,rfl⟩ := enabled_call henabled
    rw [hpending] at hnested
    refine ⟨hdepth,?_⟩
    change Nested ((s.calls++[c])++rest) s.active
    rwa [List.append_assoc]
  | op op =>
    obtain ⟨hpending,rfl⟩ := enabled_op henabled
    cases op with
    | push h => exact inv_push hinv hpending h
    | pop => exact inv_pop hinv hpending
    | replace h => exact inv_replace hinv hpending h
    | setIdleWord | setIdleCopy | setDirect => exact hinv

/-- In every run the depth stays within the array and the calls, made and to come, are
nested with the active handlers on top. -/
theorem calls_are_nested {memory : Handler W} {port : Port} {world : W}
    {trace : List (Sio W×Action W)} {last : Sio W}
    (run : Run step (start memory port world) trace last) :
    Always (fun s => s.handlerDepth≤ clSioHandlerMaxDepth ∧
      Nested (s.calls++s.pending) s.active) trace last :=
  run.always ⟨Nat.zero_le _,.nil⟩ fun _ _ _ => inv_step

/-- A replaced handler whose calls an interrupt delays. -/
theorem replaced_in_order : ∃ trace last,
    Run step (start (W := Unit) idleHandler ⟨0,false,true⟩ ()) trace last ∧
      Nested (last.calls++last.pending) [idleHandler] := by
  have run := ((((Run.nil.snoc (rfl : step (start (W := Unit) idleHandler ⟨0,false,true⟩ ())
    (.op (.push idleHandler))=some _)).snoc (rfl : step _ .call=some _)).snoc
    (rfl : step _ (.op (.replace idleHandler))=some _)).snoc (rfl : step _ (.irq 0)=some _))
  exact ⟨_,_,run,(calls_are_nested run).2.2⟩

section Words

/-- The function of the topmost handler that has one. -/
def answering (active : List (Handler W)) : Option (OnWord W) :=
  active.reverse.findSome? Handler.onWord

/-- The word that answers, and whether the port is armed again; the idle handlers have one
word. -/
def answerTo (idle word : UInt32) (s : Sio W) : UInt32×Bool :=
  match answering s.active with
  | none => (s.idleWord,true)
  | some .idle => (idle,true)
  | some (.code f) => ((f word s.world).1.1,(f word s.world).1.2.getD true)

/-- The word of the idle handlers after an action. -/
def idleAfter (idle : UInt32) : Action W → UInt32
  | .op (.setIdleCopy word) => word
  | _ => idle

/-- The word of the last call to `cl_sio_handler_push_idle`, zero before the first. -/
def lastIdle (trace : List (Sio W×Action W)) : UInt32 :=
  trace.foldl (fun idle entry => idleAfter idle entry.2) 0

theorem dispatchLoop_eq (word : UInt32) (s : Sio W) (d : ℕ) :
    dispatchLoop word s d=
      ((answering (activeOf s.handlerStack d)).map (OnWord.run · word s)).getD (s.idleWord,s) := by
  induction d with
  | zero => rfl
  | succ d ih =>
    rw [activeOf_succ]
    unfold dispatchLoop
    simp only [answering,List.reverse_append,List.reverse_cons,List.reverse_nil,List.nil_append,
      List.cons_append,List.findSome?_cons]
    cases (s.handlerStack d).onWord with
    | none => exact ih
    | some f => rfl

/-- The answer is put in the port, which is armed if the flag is set. -/
theorem port_dispatch (s : Sio W) :
    (clGbaSioIrqDispatch s).port=
      ⟨(dispatchLoop s.port.data {s with irqRearm := true} s.handlerDepth).1,
        (dispatchLoop s.port.data {s with irqRearm := true} s.handlerDepth).2.irqRearm,true⟩ := by
  unfold clGbaSioIrqDispatch
  generalize dispatchLoop s.port.data {s with irqRearm := true} s.handlerDepth=reply
  cases hrearm : reply.2.irqRearm
  · simp only [hrearm,Bool.false_eq_true,if_false]
    rfl
  · simp only [hrearm,if_true]
    rfl

theorem port_serialIrq {s : Sio W} (hdirect : s.direct=none) (word : UInt32) :
    (serialIrq word s).port=
      ⟨(answerTo s.idleCopy word s).1,(answerTo s.idleCopy word s).2,true⟩ := by
  unfold serialIrq answerTo
  simp only [hdirect,port_dispatch,dispatchLoop_eq]
  have hactive : activeOf s.handlerStack s.handlerDepth=s.active := rfl
  rw [hactive]
  cases answering s.active with
  | none => rfl
  | some onWord => cases onWord <;> rfl

theorem idleCopy_push (h : Handler W) (s : Sio W) :
    (clSioHandlerPush h s).2.idleCopy=s.idleCopy := by
  unfold clSioHandlerPush
  split <;> rfl

/-- Only the push of an idle handler changes their word, even where the stack is full. -/
theorem idleCopy_step {s t : Sio W} {action : Action W} (henabled : step s action=some t) :
    t.idleCopy=idleAfter s.idleCopy action := by
  cases action with
  | irq word =>
    cases henabled
    exact (sameStack_serialIrq word).idleCopy
  | call =>
    obtain ⟨_,_,-,rfl⟩ := enabled_call henabled
    rfl
  | op op =>
    obtain ⟨-,rfl⟩ := enabled_op henabled
    cases op with
    | push h => exact idleCopy_push h s
    | pop =>
      change (clSioHandlerPop s).2.idleCopy=s.idleCopy
      unfold clSioHandlerPop
      split <;> rfl
    | replace h =>
      change (clSioHandlerReplace h s).idleCopy=s.idleCopy
      unfold clSioHandlerReplace
      split <;> rfl
    | setIdleWord | setIdleCopy | setDirect => rfl

/-- In every run a word is answered by the topmost handler that has a function, and all
idle handlers answer with the word of the last one that was pushed or refused. -/
theorem words_are_answered {memory : Handler W} {port : Port} {world : W}
    {trace : List (Sio W×Action W)} {last : Sio W}
    (run : Run step (start memory port world) trace last) (hdirect : last.direct=none)
    (word : UInt32) :
    (serialIrq word last).port=
      ⟨(answerTo (lastIdle trace) word last).1,(answerTo (lastIdle trace) word last).2,true⟩ := by
  have hidle : last.idleCopy=lastIdle trace := by
    clear hdirect
    induction run with
    | nil => rfl
    | snoc run henabled ih =>
      unfold lastIdle at ih ⊢
      rw [idleCopy_step henabled,ih,List.foldl_append]
      rfl
  rw [← hidle]
  exact port_serialIrq hdirect word

/-- Of two idle handlers the first answers with the word of the second, also after the
second was popped. -/
theorem popped_idle_answers :
    ∃ trace last,Run step (start (W := Unit) idleHandler ⟨0,false,true⟩ ()) trace last ∧
      last.handlerDepth=1 ∧ (serialIrq 0 last).port=⟨6,true,true⟩ := by
  have first := ((Run.nil.snoc (rfl : step (start (W := Unit) idleHandler ⟨0,false,true⟩ ())
    (.op (.setIdleCopy 5))=some _)).snoc (rfl : step _ (.op (.push idleHandler))=some _)).snoc
    (rfl : step _ .call=some _)
  have second := ((first.snoc (rfl : step _ (.op (.setIdleCopy 6))=some _)).snoc
    (rfl : step _ (.op (.push idleHandler))=some _)).snoc (rfl : step _ .call=some _)
  have run := (second.snoc (rfl : step _ (.op .pop)=some _)).snoc (rfl : step _ .call=some _)
  exact ⟨_,_,run,rfl,words_are_answered run rfl 0⟩

end Words

end ChisLink.SioHandlers
