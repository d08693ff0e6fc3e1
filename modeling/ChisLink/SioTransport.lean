import ChisLink.SioMemory

/-!
# Payloads of the serial transport

The transport moves a payload in the serial interrupt: each word that was
exchanged is stored, and the next one is armed, while the caller waits for the
handler to report the end. Without this path the storage client exchanges the
words one by one. While the caller waits the other side clocks words and the
caller looks at the flag and the timer, in any order; this order is a schedule.
Pointers are not null here.
-/

namespace ChisLink.SioTransport

open WireProtocol SioMemory
open StorageClient (StoreCall)
open StorageBoundary (clpAlignedLength_words)

/-- What a transfer has done so far. -/
structure Io where
  /-- The words that were exchanged, those sent first. -/
  exchanged : List (UInt32×UInt32)
  /-- The memory. -/
  memory : Memory
  /-- Calls of the word writer. -/
  calls : List StoreCall

/-- The word that the other side has ready for each exchange. -/
abbrev Incoming : Type := ℕ → UInt32

/-- Exchange a word. -/
def exchange (incoming : Incoming) (word : UInt32) (io : Io) : UInt32×Io :=
  let received := incoming io.exchanged.length
  (received,{io with exchanged := io.exchanged++[(word,received)]})

/-- The word writer is called. -/
def storeWord (offset word valid : UInt32) (io : Io) : Io :=
  {io with calls := io.calls++[⟨offset.toNat,word,valid.toNat⟩]}

/-- Bytes of a word are stored in memory. -/
def storeMemory (dst word available : UInt32) (io : Io) : Io :=
  {io with memory := fastStoreLe32 dst word available io.memory}

section WordLoops

variable (incoming : Incoming)

/-- Offsets of the words of a payload. -/
def payloadOffsets (length : UInt32) : List UInt32 :=
  (List.range ((clpAlignedLength length).toNat/4)).map fun i => UInt32.ofNat (4*i)

/-- One round of `read_payload_words`. -/
def readPayloadWord (dst length : UInt32) (io : Io) (offset : UInt32) : Io :=
  let reply := exchange incoming nopWord io
  if offset<length then storeMemory (dst+offset) reply.1 (length-offset) reply.2
  else reply.2

/-- The function `read_payload_words`. -/
def readPayloadWords (dst length : UInt32) (io : Io) : Io :=
  (payloadOffsets length).foldl (readPayloadWord incoming dst length) io

/-- One round of `read_payload_writer_words`. -/
def readPayloadWriterWord (length : UInt32) (io : Io) (offset : UInt32) : Io :=
  let reply := exchange incoming nopWord io
  let valid := length-offset
  storeWord offset reply.1 (if 4<valid then 4 else valid) reply.2

/-- The function `read_payload_writer_words`. -/
def readPayloadWriterWords (length : UInt32) (io : Io) : Io :=
  (payloadOffsets length).foldl (readPayloadWriterWord incoming length) io

/-- One round of the loop of `write_payload_fast_or_words`. -/
def writePayloadWord (window : MemoryWindow) (offset : UInt32) (io : Io) (sent : UInt32) :
    Io :=
  (exchange incoming (memoryWindowWord io.memory window (offset+sent)) io).2

/-- The loop of `write_payload_fast_or_words`. -/
def writePayloadWords (window : MemoryWindow) (offset length : UInt32) (io : Io) : Io :=
  (payloadOffsets length).foldl (writePayloadWord incoming window offset) io

end WordLoops

section Interrupts

/-- The handlers of the serial interrupt that move a payload. -/
inductive FastHandler where
  /-- The handler `fast_rx_irq`. -/
  | rx
  /-- The handler `fast_tx_irq`. -/
  | tx
  /-- The handler `fast_window_tx_irq`. -/
  | windowTx
deriving DecidableEq

/-- The fields of `cl_gba_sio_transport_t` for payloads. -/
structure FastTransport where
  /-- The payload is done. -/
  fastDone : Bool
  /-- The payload timed out. -/
  fastTimedOut : Bool
  /-- The last transfer timed out. -/
  timedOut : Bool
  /-- Byte offset in the payload. -/
  fastOffset : UInt32
  /-- Where received bytes go. -/
  fastRxDst : UInt32
  /-- There is a word writer, received words go to it. -/
  fastRxStoreWord : Bool
  /-- Bytes to send. -/
  fastTxSrc : UInt32
  /-- Window to send from. -/
  fastTxWindow : Option MemoryWindow
  /-- Where the payload begins in the window. -/
  fastTxWindowOffset : UInt32
  /-- Bytes of the payload. -/
  fastLength : UInt32
  /-- Bytes of its words. -/
  fastAligned : UInt32
  /-- Word that is sent while nothing else is. -/
  idleWord : UInt32
  /-- Ticks before the transfer is given up, zero for never. -/
  timeoutTicks : UInt32

/-- The transport, the serial port and what was done with them. -/
structure Machine where
  /-- The transport. -/
  transport : FastTransport
  /-- The pointer `g_fast_transport` is set. -/
  gFastTransport : Bool
  /-- The handler that was installed with `cl_sio_handler_set_direct`. -/
  direct : Option FastHandler
  /-- The data register. -/
  sioData32 : UInt32
  /-- The port is armed. -/
  started : Bool
  /-- What was done. -/
  io : Io

/-- The function `cl_gba_sio_send32`. -/
def send32 (word : UInt32) (s : Machine) : Machine :=
  {s with sioData32 := word,started := true}

/-- The function `fast_disarm_idle`. -/
def fastDisarmIdle (s : Machine) : Machine :=
  {s with
    sioData32 := if s.gFastTransport then s.transport.idleWord else 0
    started := false}

/-- The function `fast_restore_dispatch`. -/
def fastRestoreDispatch (s : Machine) : Machine :=
  {s with
    gFastTransport := false
    direct := none
    sioData32 := s.transport.idleWord
    started := false}

/-- The function `fast_finish_irq`. -/
def fastFinishIrq (s : Machine) : Machine :=
  if s.gFastTransport then
    fastDisarmIdle {s with transport := {s.transport with fastDone := true}}
  else s

/-- A received word is stored, as much of it as the payload has. -/
def fastStore (s : Machine) : Io :=
  let offset := s.transport.fastOffset
  if offset<s.transport.fastLength then
    let remaining := s.transport.fastLength-offset
    let valid := if 4< remaining then 4 else remaining
    if s.transport.fastRxStoreWord then storeWord offset s.sioData32 valid s.io
    else storeMemory (s.transport.fastRxDst+offset) s.sioData32 valid s.io
  else s.io

/-- The function `fast_rx_irq`. -/
def fastRxIrq (s : Machine) : Machine :=
  if s.gFastTransport then
    let offset := s.transport.fastOffset+4
    let s' := {s with
      io := fastStore s
      transport := {s.transport with fastOffset := offset}}
    if s.transport.fastAligned≤offset then fastFinishIrq s'
    else send32 s.transport.idleWord s'
  else fastDisarmIdle s

/-- Bytes of the payload that are left. -/
def fastRemaining (t : FastTransport) : UInt32 :=
  if t.fastOffset<t.fastLength then t.fastLength-t.fastOffset else 0

/-- The function `fast_tx_send_next`. -/
def fastTxSendNext (s : Machine) : Machine :=
  let t := s.transport
  let word := fastLoadLe32 s.io.memory (t.fastTxSrc+t.fastOffset) (fastRemaining t)
  send32 word {s with transport := {t with fastOffset := t.fastOffset+4}}

/-- The function `fast_window_tx_send_next`. -/
def fastWindowTxSendNext (s : Machine) : Machine :=
  let t := s.transport
  let word := match t.fastTxWindow with
    | none => 0
    | some window =>
      fastWindowLoadLe32 s.io.memory window (t.fastTxWindowOffset+t.fastOffset)
        (fastRemaining t)
  send32 word {s with transport := {t with fastOffset := t.fastOffset+4}}

/-- The functions `fast_tx_irq` and `fast_window_tx_irq`. -/
def fastTxIrq (sendNext : Machine → Machine) (s : Machine) : Machine :=
  if s.gFastTransport then
    if s.transport.fastAligned≤ s.transport.fastOffset then fastFinishIrq s else sendNext s
  else fastDisarmIdle s

/-- The serial interrupt. Without a direct handler it is dispatched to the handler of
single words, which has no part in payloads. -/
def serialIrq (s : Machine) : Machine :=
  match s.direct with
  | some .rx => fastRxIrq s
  | some .tx => fastTxIrq fastTxSendNext s
  | some .windowTx => fastTxIrq fastWindowTxSendNext s
  | none => s

/-- What happens while the caller waits. -/
inductive Tick where
  /-- The other side clocks a word. -/
  | clock
  /-- The caller looks at the flag and then at the timer. -/
  | poll (elapsed : UInt32)
deriving DecidableEq

variable (incoming : Incoming)

/-- The other side clocks a word. The port takes part only if it is armed. -/
def clock (s : Machine) : Machine :=
  if s.started then
    let reply := exchange incoming s.sioData32 s.io
    serialIrq {s with io := reply.2,sioData32 := reply.1,started := false}
  else s

/-- The function `fast_wait`. There is no result if it still waits at the end. -/
def fastWait : List Tick → Machine → Option (ℤ×Machine)
  | [],_ => none
  | .clock::rest,s => fastWait rest (clock incoming s)
  | .poll elapsed::rest,s =>
    if s.transport.fastDone then
      let s' := if s.gFastTransport then fastRestoreDispatch s else s
      some (if s.transport.fastTimedOut then -2 else 0,s')
    else if s.transport.timeoutTicks≠0 ∧ s.transport.timeoutTicks≤elapsed then
      some (-2,fastRestoreDispatch
        {s with transport := {s.transport with fastTimedOut := true,timedOut := true}})
    else fastWait rest s

/-- The fields that all transfers set before they start. -/
def prepare (length : UInt32) (handler : FastHandler) (s : Machine)
    (fields : FastTransport → FastTransport) : Machine :=
  {s with
    transport := fields {s.transport with
      fastDone := false,fastTimedOut := false,timedOut := false,fastOffset := 0
      fastRxDst := 0,fastRxStoreWord := false,fastTxSrc := 0,fastTxWindow := none
      fastTxWindowOffset := 0,fastLength := length,fastAligned := clpAlignedLength length}
    gFastTransport := true
    direct := some handler}

/-- The function `cl_gba_sio_transport_read_payload`. -/
def sioReadPayload (dst length : UInt32) (schedule : List Tick) (s : Machine) :
    Option (ℤ×Machine) :=
  if length=0 then some (0,s)
  else
    fastWait incoming schedule (send32 s.transport.idleWord
      (prepare length .rx s fun t => {t with fastRxDst := dst}))

/-- The function `cl_gba_sio_transport_read_payload_writer`. -/
def sioReadPayloadWriter (length : UInt32) (schedule : List Tick) (s : Machine) :
    Option (ℤ×Machine) :=
  if length=0 then some (0,s)
  else
    fastWait incoming schedule (send32 s.transport.idleWord
      (prepare length .rx s fun t => {t with fastRxStoreWord := true}))

/-- The function `cl_gba_sio_transport_write_payload`. -/
def sioWritePayload (src length : UInt32) (schedule : List Tick) (s : Machine) :
    Option (ℤ×Machine) :=
  if length=0 then some (0,s)
  else
    fastWait incoming schedule
      (fastTxSendNext (prepare length .tx s fun t => {t with fastTxSrc := src}))

/-- The function `cl_gba_sio_transport_write_window_payload`. -/
def sioWriteWindowPayload (window : MemoryWindow) (offset length : UInt32)
    (schedule : List Tick) (s : Machine) : Option (ℤ×Machine) :=
  if window.length<offset ∨ window.length-offset<length then some (-1,s)
  else if length=0 then some (0,s)
  else
    fastWait incoming schedule (fastWindowTxSendNext (prepare length .windowTx s fun t =>
      {t with fastTxWindow := some window,fastTxWindowOffset := offset}))

end Interrupts

section Transfers

variable (incoming : Incoming)

/-- A transfer of words: each one is exchanged and what was received is stored. -/
def perform (sent : ℕ → UInt32) (store : ℕ → UInt32 → Io → Io) : ℕ → Io → Io
  | 0,io => io
  | k+1,io =>
    let reply := exchange incoming (sent k) (perform sent store k io)
    store k reply.1 reply.2

/-- The store operation does not exchange words. -/
def Stores (store : ℕ → UInt32 → Io → Io) : Prop :=
  ∀ k word io,(store k word io).exchanged=io.exchanged

variable {incoming}
variable {sent : ℕ → UInt32} {store store' : ℕ → UInt32 → Io → Io}

theorem perform_succ (n : ℕ) (io : Io) :
    perform incoming sent store (n+1) io=
      store n (incoming (perform incoming sent store n io).exchanged.length)
        (exchange incoming (sent n) (perform incoming sent store n io)).2 := rfl

/-- The words of a transfer. -/
theorem exchanged_perform (h : Stores store) (n : ℕ) (io : Io) :
    (perform incoming sent store n io).exchanged=io.exchanged++
      (List.range n).map fun i => (sent i,incoming (io.exchanged.length+i)) := by
  induction n with
  | zero => exact (List.append_nil _).symm
  | succ n ih =>
    unfold perform
    dsimp only
    rw [h]
    unfold exchange
    dsimp only
    rw [ih,List.range_succ,List.map_append,List.length_append,List.length_map,
      List.length_range,List.append_assoc]
    rfl

theorem length_perform (h : Stores store) (n : ℕ) (io : Io) :
    (perform incoming sent store n io).exchanged.length=io.exchanged.length+n := by
  rw [exchanged_perform h,List.length_append,List.length_map,List.length_range]

/-- A transfer that only sends leaves memory and writer alone. -/
theorem perform_sends (n : ℕ) (io : Io) :
    (perform incoming sent (fun _ _ io => io) n io).memory=io.memory ∧
      (perform incoming sent (fun _ _ io => io) n io).calls=io.calls := by
  induction n with
  | zero => exact ⟨rfl,rfl⟩
  | succ n ih => exact ih

/-- The same was done, up to the words that were sent. -/
structure Alike (io io' : Io) : Prop where
  /-- As many words. -/
  length : io.exchanged.length=io'.exchanged.length
  /-- The same memory. -/
  memory : io.memory=io'.memory
  /-- The same calls. -/
  calls : io.calls=io'.calls

theorem Alike.exchange {io io' : Io} (h : Alike io io') (incoming : Incoming)
    (word word' : UInt32) :
    (exchange incoming word io).1=(exchange incoming word' io').1 ∧
      Alike (exchange incoming word io).2 (exchange incoming word' io').2 := by
  have hlength : (io.exchanged++[(word,incoming io.exchanged.length)]).length=
      (io'.exchanged++[(word',incoming io'.exchanged.length)]).length := by
    rw [List.length_append,List.length_append,h.length]
    rfl
  refine ⟨?_,hlength,h.memory,h.calls⟩
  unfold SioTransport.exchange
  dsimp only
  rw [h.length]

/-- Transfers that store in the same way do the same. -/
theorem alike_perform {sent' : ℕ → UInt32} {n : ℕ} {io : Io}
    (h : ∀ k,k<n → ∀ word io io',Alike io io' →
      Alike (store k word io) (store' k word io')) :
    Alike (perform incoming sent store n io) (perform incoming sent' store' n io) := by
  induction n with
  | zero => exact ⟨rfl,rfl,rfl⟩
  | succ n ih =>
    have hfront := ih fun k hk => h k (by omega)
    obtain ⟨hword,hlike⟩ := hfront.exchange incoming (sent n) (sent' n)
    unfold perform
    dsimp only
    rw [hword]
    exact h n (Nat.lt_succ_self n) _ _ _ hlike

/-- A loop over the words of a payload is a transfer. -/
theorem foldl_payloadOffsets {length : UInt32} {body : Io → UInt32 → Io} {io : Io}
    (h : ∀ k,body (perform incoming sent store k io) (UInt32.ofNat (4*k))=
      perform incoming sent store (k+1) io) :
    (payloadOffsets length).foldl body io=
      perform incoming sent store ((clpAlignedLength length).toNat/4) io := by
  unfold payloadOffsets
  generalize (clpAlignedLength length).toNat/4=n
  rw [List.foldl_map]
  induction n with
  | zero => rfl
  | succ n ih => rw [List.range_succ,List.foldl_append,ih,List.foldl_cons,List.foldl_nil,h]

end Transfers

section Schedules

variable {incoming : Incoming} {n : ℕ} {stage : ℕ → Machine}

/-- Clocked words lead from one stage to the next, until the transfer is done. -/
structure Stages (incoming : Incoming) (n : ℕ) (stage : ℕ → Machine) : Prop where
  /-- A word is exchanged. -/
  next : ∀ k,k<n → clock incoming (stage k)=stage (k+1)
  /-- The port is not armed at the end. -/
  stays : clock incoming (stage n)=stage n
  /-- Only the last stage is done. -/
  done : ∀ k,k≤n → (stage k).transport.fastDone=decide (k=n)
  /-- No stage has timed out. -/
  timely : ∀ k,k≤n → (stage k).transport.fastTimedOut=false

theorem fastRestoreDispatch_io (s : Machine) :
    (if s.gFastTransport then fastRestoreDispatch s else s).io=s.io := by
  split <;> rfl

/-- However words and looks alternate, the wait ends well only after the last stage. -/
theorem Stages.of_fastWait (h : Stages incoming n stage) {schedule : List Tick} {k : ℕ}
    (hk : k≤n) {out : Machine} (hout : fastWait incoming schedule (stage k)=some (0,out)) :
    out.io=(stage n).io := by
  induction schedule generalizing k with
  | nil => cases hout
  | cons tick rest ih =>
    cases tick with
    | clock =>
      rw [fastWait] at hout
      by_cases hlt : k<n
      · rw [h.next k hlt] at hout
        exact ih (by omega) hout
      · have hend : k=n := by omega
        rw [hend,h.stays] at hout
        exact ih (le_refl n) hout
    | poll elapsed =>
      rw [fastWait,h.done k hk,h.timely k hk] at hout
      by_cases hend : k=n
      · rw [hend,decide_eq_true rfl,if_pos rfl] at hout
        cases hout
        exact fastRestoreDispatch_io _
      · rw [decide_eq_false hend,if_neg Bool.false_ne_true] at hout
        split at hout
        · cases hout
        · exact ih hk hout

/-- The wait ends well once all words were clocked. -/
theorem Stages.exists_fastWait (h : Stages incoming n stage) {k : ℕ} (hk : k≤n) :
    ∃ schedule out,fastWait incoming schedule (stage k)=some (0,out) := by
  obtain ⟨left,hleft⟩ : ∃ left,left=n-k := ⟨_,rfl⟩
  induction left generalizing k with
  | zero =>
    have hend : k=n := by omega
    refine ⟨[.poll 0],
      if (stage k).gFastTransport then fastRestoreDispatch (stage k) else stage k,?_⟩
    rw [fastWait,h.done k hk,h.timely k hk,decide_eq_true hend,if_pos rfl]
    rfl
  | succ left ih =>
    obtain ⟨schedule,out,hout⟩ := ih (k := k+1) (by omega) (by omega)
    refine ⟨.clock::schedule,out,?_⟩
    rw [fastWait,h.next k (by omega)]
    exact hout

end Schedules

section Offsets

/-- The rounded length is a number of words. -/
theorem clpAlignedLength_eq (length : UInt32) :
    (clpAlignedLength length).toNat=4*((clpAlignedLength length).toNat/4) := by
  have hmask : (~~~3 : UInt32).toNat=0xfffffffc := by decide
  have hpow := Nat.and_mod_two_pow (a := (length+3).toNat) (b := 0xfffffffc) (n := 2)
  have hzero : ((length+3).toNat &&& 0xfffffffc)%2^2=0 := by
    rw [hpow]
    exact Nat.and_zero _
  unfold clpAlignedLength
  rw [UInt32.toNat_and,hmask]
  omega

/-- Words that the interrupt path exchanges: it never ends before the first one. -/
def fastWords (length : UInt32) : ℕ := max 1 ((clpAlignedLength length).toNat/4)

theorem ofNat_offset {length : UInt32} {k : ℕ} (h : k≤fastWords length) :
    (UInt32.ofNat (4*k)).toNat=4*k := by
  have haligned := clpAlignedLength_eq length
  have hlt := (clpAlignedLength length).toNat_lt
  unfold fastWords at h
  exact UInt32.toNat_ofNat_of_lt' (by unfold UInt32.size; omega)

theorem offset_succ (k : ℕ) : UInt32.ofNat (4*k)+4=UInt32.ofNat (4*(k+1)) := by
  rw [Nat.mul_succ,UInt32.ofNat_add]
  rfl

/-- The end of the payload is reached with the last word. -/
theorem aligned_le_offset {length : UInt32} {k : ℕ} (h : k<fastWords length) :
    clpAlignedLength length≤UInt32.ofNat (4*(k+1)) ↔ k+1=fastWords length := by
  have haligned := clpAlignedLength_eq length
  rw [UInt32.le_iff_toNat_le,ofNat_offset h]
  unfold fastWords at h ⊢
  omega

/-- The storage client exchanges no word for the last three lengths. -/
theorem fastWords_eq {length : UInt32} (hzero : length≠0) :
    fastWords length=(clpAlignedLength length).toNat/4 ↔ length≤0xfffffffc := by
  have hpos : length.toNat≠0 := fun h => hzero (UInt32.toNat_inj.mp h)
  have hlt := length.toNat_lt
  have hmax : (0xfffffffc : UInt32).toNat=2^32-4 := by decide
  unfold fastWords
  rw [clpAlignedLength_words,UInt32.le_iff_toNat_le]
  omega

end Offsets

section Handlers

variable (incoming : Incoming) (t : FastTransport) (length : UInt32) (io : Io)

/-- What the receiving handler does with a word. -/
def rxStore (k : ℕ) (word : UInt32) (io : Io) : Io :=
  let offset := UInt32.ofNat (4*k)
  if offset<t.fastLength then
    let valid := if 4<t.fastLength-offset then 4 else t.fastLength-offset
    if t.fastRxStoreWord then storeWord offset word valid io
    else storeMemory (t.fastRxDst+offset) word valid io
  else io

/-- The machine after some words of a payload that is received. -/
def rxStage (k : ℕ) : Machine where
  transport := {t with
    fastOffset := UInt32.ofNat (4*k)
    fastDone := decide (k=fastWords length)}
  gFastTransport := true
  direct := some .rx
  sioData32 := t.idleWord
  started := decide (k<fastWords length)
  io := perform incoming (fun _ => t.idleWord) (rxStore t) k io

/-- The machine after some words of a payload that is sent. -/
def txStage (handler : FastHandler) (word : ℕ → UInt32) (k : ℕ) : Machine where
  transport := {t with
    fastOffset := UInt32.ofNat (4*min (k+1) (fastWords length))
    fastDone := decide (k=fastWords length)}
  gFastTransport := true
  direct := some handler
  sioData32 := if k<fastWords length then word k else t.idleWord
  started := decide (k<fastWords length)
  io := perform incoming word (fun _ _ io => io) k io

variable {incoming} {t} {length} {io}

/-- The receiving handler goes through its stages. -/
theorem rx_stages (haligned : t.fastAligned=clpAlignedLength length)
    (htimely : t.fastTimedOut=false) :
    Stages incoming (fastWords length) (rxStage incoming t length io) where
  next k hk := by
    have hstarted : (rxStage incoming t length io k).started=true := decide_eq_true hk
    have hirq : clock incoming (rxStage incoming t length io k)=
        if t.fastAligned≤UInt32.ofNat (4*(k+1)) then
          fastFinishIrq
            {rxStage incoming t length io (k+1) with
              transport := {t with
                fastOffset := UInt32.ofNat (4*(k+1))
                fastDone := decide (k=fastWords length)}
              started := false
              sioData32 := incoming (perform incoming (fun _ => t.idleWord) (rxStore t) k
                io).exchanged.length}
        else
          {rxStage incoming t length io (k+1) with
            transport := {t with
              fastOffset := UInt32.ofNat (4*(k+1))
              fastDone := decide (k=fastWords length)}
            started := true} := by
      rw [← offset_succ]
      unfold clock
      rw [if_pos hstarted]
      rfl
    have hnot : k≠fastWords length := by omega
    have hoffset : t.fastAligned≤UInt32.ofNat (4*(k+1)) ↔ k+1=fastWords length := by
      rw [haligned]
      exact aligned_le_offset hk
    rw [hirq]
    by_cases hlast : k+1=fastWords length
    · rw [if_pos (hoffset.mpr hlast)]
      unfold fastFinishIrq fastDisarmIdle rxStage
      have hend : ¬k+1<fastWords length := by omega
      simp only [if_true,decide_eq_true hlast,decide_eq_false hend]
    · rw [if_neg (mt hoffset.mp hlast)]
      unfold rxStage
      have hmore : k+1<fastWords length := by omega
      simp only [decide_eq_false hlast,decide_eq_false hnot,decide_eq_true hmore]
  stays := by
    have hstarted : (rxStage incoming t length io (fastWords length)).started=false :=
      decide_eq_false (Nat.lt_irrefl _)
    unfold clock
    rw [hstarted]
    rfl
  done k hk := rfl
  timely k hk := htimely

/-- A sending handler goes through its stages if it loads its words in order. -/
theorem tx_stages {handler : FastHandler} {word : ℕ → UInt32}
    {sendNext : Machine → Machine}
    (hirq : ∀ s,s.direct=some handler → serialIrq s=fastTxIrq sendNext s)
    (hsend : ∀ k s,s.io.memory=io.memory →
      s.transport={t with fastOffset := UInt32.ofNat (4*k),fastDone := false} →
      sendNext s=send32 (word k)
        {s with transport := {t with fastOffset := UInt32.ofNat (4*(k+1)),fastDone := false}})
    (haligned : t.fastAligned=clpAlignedLength length)
    (htimely : t.fastTimedOut=false) :
    Stages incoming (fastWords length) (txStage incoming t length io handler word) where
  next k hk := by
    have hstarted : (txStage incoming t length io handler word k).started=true :=
      decide_eq_true hk
    have hnot : k≠fastWords length := by omega
    have hmin : min (k+1) (fastWords length)=k+1 := by omega
    obtain ⟨s,hs⟩ : ∃ s,s={txStage incoming t length io handler word k with
      io := perform incoming word (fun _ _ io => io) (k+1) io
      sioData32 := incoming (perform incoming word (fun _ _ io => io) k io).exchanged.length
      started := false} := ⟨_,rfl⟩
    have hclock : clock incoming (txStage incoming t length io handler word k)=serialIrq s := by
      unfold clock
      rw [if_pos hstarted,hs]
      unfold txStage
      rw [if_pos hk]
      rfl
    have hdirect : s.direct=some handler := by rw [hs]; rfl
    have hfast : s.gFastTransport=true := by rw [hs]; rfl
    have hmemory : s.io.memory=io.memory := by
      rw [hs]
      exact (perform_sends (k+1) io).1
    have htransport : s.transport=
        {t with fastOffset := UInt32.ofNat (4*(k+1)),fastDone := false} := by
      rw [hs]
      unfold txStage
      rw [hmin,decide_eq_false hnot]
    have hoffset : s.transport.fastAligned≤ s.transport.fastOffset ↔
        k+1=fastWords length := by
      rw [htransport,haligned]
      exact aligned_le_offset hk
    rw [hclock,hirq s hdirect]
    unfold fastTxIrq
    rw [if_pos hfast]
    by_cases hlast : k+1=fastWords length
    · have hend : ¬k+1<fastWords length := by omega
      have hstay : min (k+1+1) (fastWords length)=k+1 := by omega
      rw [if_pos (hoffset.mpr hlast)]
      unfold fastFinishIrq fastDisarmIdle
      rw [if_pos hfast,if_pos hfast,htransport,hs]
      unfold txStage
      simp only [if_neg hend,hstay,decide_eq_true hlast,decide_eq_false hend]
    · have hmore : k+1<fastWords length := by omega
      have hgo : min (k+1+1) (fastWords length)=k+1+1 := by omega
      rw [if_neg (mt hoffset.mp hlast),hsend (k+1) s hmemory htransport,hs]
      unfold send32 txStage
      simp only [if_pos hmore,hgo,decide_eq_false hlast,decide_eq_true hmore]
  stays := by
    have hstarted : (txStage incoming t length io handler word (fastWords length)).started=
        false := decide_eq_false (Nat.lt_irrefl _)
    unfold clock
    rw [hstarted]
    rfl
  done k hk := rfl
  timely k hk := htimely

end Handlers

section Loops

variable (incoming : Incoming) (length : UInt32) (io : Io)

/-- What the storage client does with a word for memory. -/
def memoryStore (dst : UInt32) (k : ℕ) (word : UInt32) (io : Io) : Io :=
  if UInt32.ofNat (4*k)<length then
    storeMemory (dst+UInt32.ofNat (4*k)) word (length-UInt32.ofNat (4*k)) io
  else io

/-- What the storage client does with a word for the writer. -/
def writerStore (k : ℕ) (word : UInt32) (io : Io) : Io :=
  storeWord (UInt32.ofNat (4*k)) word
    (if 4<length-UInt32.ofNat (4*k) then 4 else length-UInt32.ofNat (4*k)) io

theorem memoryStore_stores (dst : UInt32) : Stores (memoryStore length dst) := by
  intro k word io
  unfold memoryStore
  split <;> rfl

theorem memoryStore_memory {k : ℕ} (dst word : UInt32) (h : UInt32.ofNat (4*k)<length) :
    (memoryStore length dst k word io).memory=
      fastStoreLe32 (dst+UInt32.ofNat (4*k)) word (length-UInt32.ofNat (4*k)) io.memory := by
  unfold memoryStore
  rw [if_pos h]
  rfl

theorem writerStore_stores : Stores (writerStore length) := fun _ _ _ => rfl

/-- The storage client receives into memory by a transfer. -/
theorem readPayloadWords_eq (dst : UInt32) :
    readPayloadWords incoming dst length io=
      perform incoming (fun _ => nopWord) (memoryStore length dst)
        ((clpAlignedLength length).toNat/4) io :=
  foldl_payloadOffsets fun _ => rfl

/-- The storage client receives through a writer by a transfer. -/
theorem readPayloadWriterWords_eq :
    readPayloadWriterWords incoming length io=
      perform incoming (fun _ => nopWord) (writerStore length)
        ((clpAlignedLength length).toNat/4) io :=
  foldl_payloadOffsets fun _ => rfl

/-- The storage client sends by a transfer. -/
theorem writePayloadWords_eq (window : MemoryWindow) (offset : UInt32) :
    writePayloadWords incoming window offset length io=
      perform incoming
        (fun k => memoryWindowWord io.memory window (offset+UInt32.ofNat (4*k)))
        (fun _ _ io => io) ((clpAlignedLength length).toNat/4) io := by
  refine foldl_payloadOffsets fun k => ?_
  unfold writePayloadWord
  rw [(perform_sends k io).1]
  rfl

end Loops

section Waits

variable {incoming : Incoming} {length : UInt32} {s : Machine}

/-- What is received through the interrupt. -/
theorem rx_outcome {fields : FastTransport → FastTransport} {t : FastTransport}
    (ht : (prepare length .rx s fields).transport=
      {t with fastOffset := 0,fastDone := false})
    (hidle : t.idleWord=s.transport.idleWord)
    (haligned : t.fastAligned=clpAlignedLength length) (htimely : t.fastTimedOut=false) :
    (∃ schedule out,fastWait incoming schedule (send32 s.transport.idleWord
        (prepare length .rx s fields))=some (0,out)) ∧
      ∀ schedule out,fastWait incoming schedule (send32 s.transport.idleWord
          (prepare length .rx s fields))=some (0,out) →
        out.io=perform incoming (fun _ => t.idleWord) (rxStore t) (fastWords length) s.io := by
  have hpos : 0<fastWords length := Nat.lt_of_lt_of_le Nat.one_pos (Nat.le_max_left ..)
  have hstart : send32 s.transport.idleWord (prepare length .rx s fields)=
      rxStage incoming t length s.io 0 := by
    unfold rxStage
    rw [decide_eq_true hpos,decide_eq_false hpos.ne,← hidle]
    unfold send32
    rw [ht]
    rfl
  have hstages : Stages incoming (fastWords length) (rxStage incoming t length s.io) :=
    rx_stages haligned htimely
  rw [hstart]
  exact ⟨hstages.exists_fastWait hpos.le,fun _ _ hout => hstages.of_fastWait hpos.le hout⟩

/-- What is sent through the interrupt. -/
theorem tx_outcome {handler : FastHandler} {fields : FastTransport → FastTransport}
    {word : ℕ → UInt32} {sendNext : Machine → Machine} {t : FastTransport}
    (hirq : ∀ s,s.direct=some handler → serialIrq s=fastTxIrq sendNext s)
    (hsend : ∀ k s',s'.io.memory=s.io.memory →
      s'.transport={t with fastOffset := UInt32.ofNat (4*k),fastDone := false} →
      sendNext s'=send32 (word k)
        {s' with transport :=
          {t with fastOffset := UInt32.ofNat (4*(k+1)),fastDone := false}})
    (ht : (prepare length handler s fields).transport=
      {t with fastOffset := 0,fastDone := false})
    (haligned : t.fastAligned=clpAlignedLength length) (htimely : t.fastTimedOut=false) :
    (∃ schedule out,fastWait incoming schedule
        (sendNext (prepare length handler s fields))=some (0,out)) ∧
      ∀ schedule out,fastWait incoming schedule
          (sendNext (prepare length handler s fields))=some (0,out) →
        out.io=perform incoming word (fun _ _ io => io) (fastWords length) s.io := by
  have hpos : 0<fastWords length := Nat.lt_of_lt_of_le Nat.one_pos (Nat.le_max_left ..)
  have hone : min (0+1) (fastWords length)=0+1 := by omega
  have hstart : sendNext (prepare length handler s fields)=
      txStage incoming t length s.io handler word 0 := by
    rw [hsend 0 (prepare length handler s fields) rfl ht]
    unfold txStage
    rw [decide_eq_true hpos,decide_eq_false hpos.ne,if_pos hpos,hone]
    rfl
  have hstages : Stages incoming (fastWords length)
      (txStage incoming t length s.io handler word) := tx_stages hirq hsend haligned htimely
  rw [hstart]
  exact ⟨hstages.exists_fastWait hpos.le,fun _ _ hout => hstages.of_fastWait hpos.le hout⟩

end Waits

end ChisLink.SioTransport
