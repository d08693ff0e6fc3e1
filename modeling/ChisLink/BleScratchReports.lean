import ChisLink.BleScratchBounds

/-!
# Payload that the Bluetooth client reports

An operation that returns payload counts the bytes of the answers that it read; no other
one reports any. Together with the bounds of the scratch buffer this holds for every
operation and every transport, unless the information about a connection is read to a
buffer that is shorter than it.
-/

namespace ChisLink.BleScratchReports

open DriverPrograms WireProtocol StorageClient StorageBoundary WireCommands ClientExchange
  BleClient ClientBoundary BleConnections BleScratch BleScratchBounds

variable {δ α β : Type}

/-- Payload bytes that were received: after each accepted answer no more than its length
and no more than the words that were read. -/
def receivedBytes : List LinkEvent → ℕ
  | [] => 0
  | .accepted response::events =>
    min response.length.toNat (4*(payloadOf events).length)+receivedBytes events
  | .command _::events => receivedBytes events
  | .word _ _::events => receivedBytes events

theorem payloadOf_append {second : List LinkEvent} (h : payloadOf second=[])
    (first : List LinkEvent) : payloadOf (first++second)=payloadOf first := by
  induction first with
  | nil => exact h
  | cons event first ih =>
    cases event with
    | word sent received =>
      have hcons : payloadOf (.word sent received::first++second)=
          received::payloadOf (first++second) := rfl
      rw [hcons,ih]
      rfl
    | command header => rfl
    | accepted response => rfl

/-- A record that does not begin in a payload adds its bytes. -/
theorem receivedBytes_append {second : List LinkEvent} (h : payloadOf second=[])
    (first : List LinkEvent) :
    receivedBytes (first++second)=receivedBytes first+receivedBytes second := by
  induction first with
  | nil => rw [List.nil_append,receivedBytes,Nat.zero_add]
  | cons event first ih =>
    rw [List.cons_append]
    cases event with
    | word sent received => simp only [receivedBytes,ih]
    | command header => simp only [receivedBytes,ih]
    | accepted response =>
      simp only [receivedBytes,ih,payloadOf_append h,Nat.add_assoc]

@[simp] theorem receivedBytes_wordEvents (pairs : List (UInt32×UInt32))
    (rest : List LinkEvent) :
    receivedBytes (wordEvents pairs++rest)=receivedBytes rest := by
  induction pairs with
  | nil => rfl
  | cons pair pairs ih =>
    have hcons : receivedBytes (wordEvents (pair::pairs)++rest)=
        receivedBytes (wordEvents pairs++rest) := rfl
    rw [hcons,ih]

/-- A frame whose answer is read counts the bytes of its answer. -/
theorem receivedBytes_answer (header response : ClpHeader)
    (sent waited payload : List (UInt32×UInt32)) :
    receivedBytes (.command header::(wordEvents sent++
      (wordEvents waited++[.accepted response]))++wordEvents payload)=
      min response.length.toNat (4*payload.length) := by
  have hwords : receivedBytes (wordEvents payload)=0 := by
    have h := receivedBytes_wordEvents payload []
    rwa [List.append_nil] at h
  have hpayload : payloadOf (wordEvents payload)=payload.map Prod.snd := by
    have h := payloadOf_wordEvents payload []
    have hnil : payloadOf []=[] := rfl
    rwa [List.append_nil,hnil,List.append_nil] at h
  simp only [List.cons_append,List.append_assoc,receivedBytes,receivedBytes_wordEvents,
    List.nil_append,hwords,hpayload,List.length_map,Nat.add_zero]

section Counting

/-- A program records frames, and its result counts no more bytes than there were before
and than it received. -/
def Adds (before : ℕ) (count : α → ℕ) (q : Prog (Link δ) α) : Prop :=
  Emits Link.log q fun a events => Frames events ∧ count a≤before+receivedBytes events

/-- What is counted of a result. -/
def counted (count : α → ℕ) : Except ℤ α → ℕ
  | .error _ => 0
  | .ok a => count a

theorem adds_pure {before : ℕ} {count : α → ℕ} {a : α} (h : count a≤before) :
    Adds (δ := δ) before count (pure a) :=
  emits_pure ⟨.nil,Nat.le_add_right_of_le h⟩

theorem adds_refuse {before : ℕ} {count : α → ℕ} (code : ℤ) :
    Adds (δ := δ) before (counted count) (refuse code) :=
  adds_pure (Nat.zero_le _)

/-- A program that records frames keeps a count. -/
theorem adds_of_keeps {before : ℕ} {count : α → ℕ} {q : Prog (Link δ) α} (h : Keeps q)
    (hcount : ∀ a,count a≤before) : Adds before count q :=
  h.mono fun a _ hframes => ⟨hframes,Nat.le_add_right_of_le (hcount a)⟩

/-- There were more bytes before. -/
theorem Adds.weaken {before before' : ℕ} {count : α → ℕ} {q : Prog (Link δ) α}
    (h : Adds before count q) (hle : before≤before') : Adds before' count q :=
  h.mono fun _ _ hcount => ⟨hcount.1,Nat.le_trans hcount.2 (Nat.add_le_add_right hle _)⟩

/-- Bytes from before are counted too. -/
theorem Adds.plus {count : α → ℕ} {q : Prog (Link δ) α} (h : Adds 0 count q) (before : ℕ) :
    Adds before (fun a => before+count a) q := by
  refine h.mono fun a events hcount => ⟨hcount.1,Nat.add_le_add_left ?_ _⟩
  have hle := hcount.2
  rwa [Nat.zero_add] at hle

/-- What the first program counts is there before the second one. -/
theorem Adds.bind {before : ℕ} {middle : β → ℕ} {count : α → ℕ} {p : Prog (Link δ) β}
    {f : β → Prog (Link δ) α} (hp : Adds before middle p)
    (hf : ∀ b,Adds (middle b) count (f b)) : Adds before count (p >>= f) := by
  refine Emits.bind hp ?_
  rintro b first ⟨hfirst,hmiddle⟩
  refine (hf b).mono fun a rest hrest => ⟨hfirst.append hrest.1,?_⟩
  rw [receivedBytes_append hrest.1.payloadOf]
  have hcount := hrest.2
  omega

theorem Adds.andThen {before : ℕ} {middle : β → ℕ} {count : α → ℕ}
    {p : Prog (Link δ) (Except ℤ β)} {f : β → Prog (Link δ) (Except ℤ α)}
    (hp : Adds before (counted middle) p)
    (hf : ∀ b,Adds (middle b) (counted count) (f b)) :
    Adds before (counted count) (ClientExchange.andThen p f) := by
  refine Adds.bind hp fun result => ?_
  cases result with
  | error code => exact adds_pure (Nat.zero_le _)
  | ok b => exact hf b

/-- Nothing is counted before the second program. -/
theorem Adds.after {before : ℕ} {count : α → ℕ} {p : Prog (Link δ) (Except ℤ β)}
    {f : β → Prog (Link δ) (Except ℤ α)} (hp : Keeps p)
    (hf : ∀ b,Adds 0 (counted count) (f b)) :
    Adds before (counted count) (ClientExchange.andThen p f) := by
  refine Adds.andThen (adds_of_keeps hp fun result => ?_) hf
  cases result <;> exact Nat.zero_le _

theorem Adds.andFinally {before : ℕ} {count : α → ℕ} {run : Prog (Link δ) (Except ℤ α)}
    {cleanup : Prog (Link δ) (Except ℤ β)} (hrun : Adds before (counted count) run)
    (hcleanup : Keeps cleanup) :
    Adds before (counted count) (ClientExchange.andFinally run cleanup) := by
  refine Adds.bind hrun fun result => ?_
  refine Adds.bind (adds_of_keeps hcleanup fun _ => Nat.le_refl _) fun cleaned => ?_
  cases result with
  | error code => exact adds_pure (Nat.zero_le _)
  | ok a =>
    cases cleaned with
    | error code => exact adds_pure (Nat.zero_le _)
    | ok _ => exact adds_pure (Nat.le_refl _)

theorem Adds.ite {before : ℕ} {count : α → ℕ} {c : Prop} [Decidable c]
    {p q : Prog (Link δ) α} (hp : Adds before count p) (hq : Adds before count q) :
    Adds before count (if c then p else q) := by
  split
  · exact hp
  · exact hq

theorem Adds.withScratch {ble : Peer δ} {before required : ℕ} {count : α → ℕ}
    {run : Prog (Link δ) (Except ℤ α)} (h : Adds before (counted count) run) :
    Adds before (counted count) (ClientExchange.withScratch ble required run) := by
  unfold ClientExchange.withScratch
  split
  · exact adds_refuse _
  · exact h

end Counting

section Operations

variable (ble : Peer δ)

/-- What is read within bounds is an answer or is discarded. -/
theorem emits_expectWithin (low high : UInt32) (parse : UInt32 → List UInt8 → Except ℤ α)
    (response : ClpHeader) :
    Emits Link.log (expectWithin ble low high parse response) fun result events =>
      ∃ pairs,events=wordEvents pairs ∧ ((∃ code,result=.error code) ∨
        ∃ payload,result=parse response.length payload ∧
          payload.length≤ min response.length.toNat (4*pairs.length)) := by
  unfold expectWithin
  split
  next =>
    refine (emits_clWireDiscardPayload ble.transport response.length).bind ?_
    rintro _ _ ⟨pairs,rfl,-⟩
    exact emits_pure ⟨pairs,List.append_nil _,Or.inl ⟨_,rfl⟩⟩
  next =>
    refine (emits_readPayloadWords ble.transport response.length).bind ?_
    rintro payload _ ⟨pairs,rfl,rfl,-⟩
    refine emits_pure ⟨pairs,List.append_nil _,Or.inr ⟨_,rfl,?_⟩⟩
    unfold payloadBytes
    rw [List.length_take,length_flatMap_of_forall _ 4 (fun _ => rfl),List.length_map,
      Nat.mul_comm]

/-- An answer within bounds is counted by its payload. -/
theorem adds_within {before : ℕ} {count : α → ℕ} {channel opcode : UInt8}
    {chunks : List (List UInt8)} {low high : UInt32}
    {parse : UInt32 → List UInt8 → Except ℤ α}
    (htakes : ∀ length status,takesPayload channel opcode length status=true)
    (hcount : ∀ length payload,counted count (parse length payload)≤payload.length) :
    Adds before (counted count)
      (exchange ble channel opcode chunks (expectWithin ble low high parse)) := by
  have hreceived : Emits Link.log
      (exchange ble channel opcode chunks (expectWithin ble low high parse))
      fun result events => counted count result≤ receivedBytes events := by
    unfold exchange ClientExchange.andThen
    refine (emits_commandAnswer ble.transport).bind ?_
    intro answer events hasked
    cases answer with
    | error code => exact emits_pure (Nat.zero_le _)
    | ok response =>
      refine (emits_expectWithin ble low high parse response).mono ?_
      rintro result _ ⟨pairs,rfl,⟨code,rfl⟩ | ⟨payload,rfl,hpayload⟩⟩
      · exact Nat.zero_le _
      · obtain ⟨h,-⟩ | ⟨header,sent,_,-,-,-,-,⟨waited,rfl⟩,rfl⟩ := hasked
        · cases h
        · rw [receivedBytes_answer]
          exact Nat.le_trans (hcount _ _) hpayload
  refine ((keeps_within htakes).and hreceived).mono ?_
  rintro result events ⟨hframes,hle⟩
  exact ⟨hframes,Nat.le_add_left_of_le hle⟩

theorem counts_clBleGattRead (handle attr : UInt16) (capacity : UInt32) :
    Adds 0 (counted List.length) (clBleGattRead ble handle attr capacity) :=
  (adds_refuse _).ite (adds_within ble (fun _ _ => rfl) fun _ _ => Nat.le_refl _).withScratch

theorem counts_clBleGattReadLong (handle attr offset : UInt16) (capacity : UInt32) :
    Adds 0 (counted List.length) (clBleGattReadLong ble handle attr offset capacity) :=
  (adds_refuse _).ite (adds_within ble (fun _ _ => rfl) fun _ _ => Nat.le_refl _).withScratch

theorem counts_clBleGattsGetValue (attr offset : UInt16) (capacity : UInt32) :
    Adds 0 (counted List.length) (clBleGattsGetValue ble attr offset capacity) :=
  (adds_within ble (fun _ _ => rfl) fun _ _ => Nat.le_refl _).withScratch

theorem counts_clBleReadChr16 (addr : BleAddr) (uuid16 : UInt16) (capacity : UInt32) :
    Adds 0 (counted List.length) (clBleReadChr16 ble addr uuid16 capacity) := by
  refine (adds_refuse _).ite (Adds.after (keeps_clBleConnect ble addr) fun handle => ?_)
  refine Adds.andFinally ?_ (keeps_clBleDisconnect ble handle)
  exact Adds.after (keeps_clBleGattFindChr16 ble handle _ _ _) fun _ =>
    counts_clBleGattRead ble handle _ _

/-- A name is as long as what was read. -/
theorem counts_clBleProbeDeviceName (addr : BleAddr) (outSize : ℕ) :
    Adds 0 (counted Prod.fst) (clBleProbeDeviceName ble addr outSize) := by
  refine (adds_refuse _).ite (Adds.after (keeps_clBleConnect ble addr) fun handle => ?_)
  refine Adds.andFinally ?_ (keeps_clBleDisconnect ble handle)
  refine Adds.after (keeps_clBleGattFindChr16 ble handle _ _ _) fun chr => Adds.withScratch ?_
  exact (counts_clBleGattRead ble handle _ _).andThen fun raw => adds_pure (Nat.le_refl _)

/-- Data of an event. -/
def eventBytes (event : BleEvent) : ℕ := event.data.length

/-- Data of events. -/
def dataBytes (events : List BleEvent) : ℕ := (events.map eventBytes).sum

/-- The data of an event are a part of its payload. -/
theorem counted_parseEvent (maxData : ℕ) (length : UInt32) (payload : List UInt8) :
    counted eventBytes (clBleParseEventResponse maxData length payload)≤payload.length := by
  unfold clBleParseEventResponse
  by_cases hbad : maxData<(payload.getD 3 0).toNat ∨
      length.toNat≠clpBleEventHeaderBytes+(payload.getD 3 0).toNat
  · simp only [if_pos hbad]
    exact Nat.zero_le _
  · simp only [if_neg hbad,counted,eventBytes]
    rw [List.length_take,List.length_drop]
    omega

theorem counts_clBleEventNext (maxData : ℕ) :
    Adds 0 (counted eventBytes) (clBleEventNext ble maxData) := by
  refine (adds_refuse _).ite (adds_within ble (fun _ _ => rfl) ?_).withScratch
  exact counted_parseEvent maxData

/-- An event that is kept adds its data. -/
theorem dataBytes_keepEvent (capacity : ℕ) (events : List BleEvent) (event : BleEvent) :
    dataBytes (keepEvent capacity events event)≤dataBytes events+eventBytes event := by
  unfold keepEvent dataBytes
  split
  · rw [List.map_append,List.sum_append,List.map_singleton,List.sum_singleton]
  · exact Nat.le_add_right _ _

theorem counts_collectNotifications (valueHandle : UInt16) (capacity attempts : ℕ)
    (events : List BleEvent) :
    Adds (dataBytes events) (counted dataBytes)
      (collectNotifications ble valueHandle capacity attempts events) := by
  induction attempts generalizing events with
  | zero => exact adds_pure (Nat.le_refl _)
  | succ attempts ih =>
    refine Adds.bind ((counts_clBleEventNext ble _).plus _) fun next => ?_
    cases next with
    | error code => exact (ih events).ite (adds_pure (Nat.zero_le _))
    | ok event =>
      refine (ih _).weaken ?_
      split
      · exact dataBytes_keepEvent capacity events event
      · exact Nat.le_add_right _ _

theorem counts_clBleCollectNotifyChr16 (addr : BleAddr) (uuid16 : UInt16) (capacity : ℕ)
    (pollAttempts : UInt32) :
    Adds 0 (counted dataBytes)
      (clBleCollectNotifyChr16 ble addr uuid16 capacity pollAttempts) := by
  refine (adds_refuse _).ite (Adds.after (keeps_clBleConnect ble addr) fun handle => ?_)
  refine Adds.andFinally ?_ (keeps_clBleDisconnect ble handle)
  refine Adds.after (keeps_clBleGattFindChr16 ble handle _ _ _) fun chr => ?_
  refine Adds.after (keeps_subscribeOrNotify ble handle _ _) fun _ => ?_
  exact Adds.andFinally (counts_collectNotifications ble _ _ _ [])
    (keeps_subscribeOrNotify ble handle _ _)

theorem counts_collectScan (capacity attempts : ℕ) (events : List BleEvent) :
    Adds (dataBytes events) (counted dataBytes) (collectScan ble capacity attempts events) := by
  induction attempts generalizing events with
  | zero => exact adds_pure (Nat.le_refl _)
  | succ attempts ih =>
    refine Adds.bind ((counts_clBleEventNext ble _).plus _) fun next => ?_
    cases next with
    | error code => exact (ih events).ite (adds_pure (Nat.zero_le _))
    | ok event =>
      refine (adds_pure (Nat.le_add_right _ _)).ite ((ih _).weaken ?_)
      split
      · exact dataBytes_keepEvent capacity events event
      · exact Nat.le_add_right _ _

theorem counts_clBleScanCollect (durationMs : UInt16) (capacity : ℕ) (pollAttempts : UInt32) :
    Adds 0 (counted dataBytes) (clBleScanCollect ble durationMs capacity pollAttempts) :=
  Adds.after (keeps_clBleScanStart ble durationMs) fun _ =>
    Adds.andFinally (counts_collectScan ble _ _ []) (keeps_clBleScanStop ble)

end Operations

section Requests

variable {ble : Peer δ}

/-- Run an operation; its code and the payload bytes that it reports. -/
def reporting (count : α → ℕ) (run : Prog (Scratched δ) (Except ℤ α)) :
    Prog (Scratched δ) (ℤ×ℕ) := do
  let result ← run
  match result with
  | .error code => pure (code,0)
  | .ok a => pure (0,count a)

/-- Run an operation that reports no payload. -/
def silent (run : Prog (Scratched δ) (Except ℤ α)) : Prog (Scratched δ) (ℤ×ℕ) :=
  reporting (fun _ => 0) run

/-- Run a link operation, which reports no payload. -/
def linkSilent (run : Prog (Scratched δ) (Except ℤ ℕ×BleLink)) :
    Prog (Scratched δ) (ℤ×ℕ) := do
  let result ← run
  match result.1 with
  | .error code => pure (code,0)
  | .ok value => pure (value,0)

/-- Carry out a Bluetooth operation with the record of the scratch buffer. -/
def performScratch (ble : Peer δ) : BleRequest → Prog (Scratched δ) (ℤ×ℕ)
  | .scanStart durationMs => silent (scanStart ble durationMs)
  | .scanStop => silent (onLink (clBleScanStop ble))
  | .scanCollect durationMs capacity pollAttempts =>
    reporting dataBytes (scanCollect ble durationMs capacity pollAttempts)
  | .scanStartEx durationMs intervalUs windowUs flags =>
    silent (scanStartEx ble durationMs intervalUs windowUs flags)
  | .connect addr => silent (connect ble addr)
  | .disconnect handle => silent (disconnect ble handle)
  | .probeDeviceName addr outSize => reporting Prod.fst (probeDeviceName ble addr outSize)
  | .readChr16 addr uuid16 capacity =>
    reporting List.length (readChr16 ble addr uuid16 capacity)
  | .writeChr16 addr uuid16 data => silent (writeChr16 ble addr uuid16 data)
  | .collectNotifyChr16 addr uuid16 capacity pollAttempts =>
    reporting dataBytes (collectNotifyChr16 ble addr uuid16 capacity pollAttempts)
  | .gattFindChr16 handle startHandle endHandle uuid16 =>
    silent (gattFindChr16 ble handle startHandle endHandle uuid16)
  | .gattFindService handle startHandle endHandle uuid16 =>
    silent (gattFindService ble handle startHandle endHandle uuid16)
  | .gattFindChr handle startHandle endHandle uuid16 =>
    silent (gattFindChr ble handle startHandle endHandle uuid16)
  | .gattFindDesc handle chrValueHandle endHandle uuid16 =>
    silent (gattFindDesc ble handle chrValueHandle endHandle uuid16)
  | .gattFindService128 handle startHandle endHandle uuid128 =>
    silent (gattFindService128 ble handle startHandle endHandle uuid128)
  | .gattFindChr128 handle startHandle endHandle uuid128 =>
    silent (gattFindChr128 ble handle startHandle endHandle uuid128)
  | .gattFindDesc128 handle chrValueHandle endHandle uuid128 =>
    silent (gattFindDesc128 ble handle chrValueHandle endHandle uuid128)
  | .gattRead handle attr capacity =>
    reporting List.length (gattRead ble elsewhere handle attr capacity)
  | .gattWrite handle attr data => silent (gattWrite ble handle attr data)
  | .gattNotify handle attr enable => silent (gattNotify ble handle attr enable)
  | .gattSubscribe handle valueHandle endHandle enable indicate =>
    silent (gattSubscribe ble handle valueHandle endHandle enable indicate)
  | .gattSubscribeChr16 handle serviceUuid16 chrUuid16 enable indicate =>
    silent (gattSubscribeChr16 ble handle serviceUuid16 chrUuid16 enable indicate)
  | .gattReadLong handle attr offset capacity =>
    reporting List.length (gattReadLong ble handle attr offset capacity)
  | .gattWriteLong handle attr offset data =>
    silent (gattWriteLong ble handle attr offset data)
  | .eventNext maxData => reporting eventBytes (eventNext ble maxData)
  | .connUpdate handle intervalMin intervalMax latency timeout =>
    silent (connUpdate ble handle intervalMin intervalMax latency timeout)
  | .exchangeMtu handle => silent (exchangeMtu ble handle)
  | .connInfo handle => silent (connInfo ble handle)
  | .isConnected handle => silent (isConnected ble handle)
  | .securityConfig config => silent (securityConfig ble config)
  | .pair handle ioCaps bond => silent (pair ble handle ioCaps bond)
  | .passkeyReply handle passkey => silent (passkeyReply ble handle passkey)
  | .gattsReset => silent (onLink (clBleGattsReset ble))
  | .gattsAddService16 uuid16 flags => silent (gattsAddService16 ble uuid16 flags)
  | .gattsAddService128 uuid128 flags => silent (gattsAddService128 ble uuid128 flags)
  | .gattsAddInclude service includedService =>
    silent (gattsAddInclude ble service includedService)
  | .gattsAddChr16 service uuid16 flags value =>
    silent (gattsAddChr16 ble service uuid16 flags value)
  | .gattsAddChr128 service uuid128 flags value =>
    silent (gattsAddChr128 ble service uuid128 flags value)
  | .gattsAddDesc16 chr uuid16 flags value =>
    silent (gattsAddDesc16 ble chr uuid16 flags value)
  | .gattsAddDesc128 chr uuid128 flags value =>
    silent (gattsAddDesc128 ble chr uuid128 flags value)
  | .gattsStart => silent (onLink (clBleGattsStart ble))
  | .gattsStop => silent (onLink (clBleGattsStop ble))
  | .advStart config => silent (advStart ble config)
  | .advStop => silent (onLink (clBleAdvStop ble))
  | .gattsNotify handle chr data => silent (gattsNotify ble handle chr data)
  | .gattsSetValue attr data => silent (gattsSetValue ble attr data)
  | .gattsGetValue attr offset capacity =>
    reporting List.length (gattsGetValue ble attr offset capacity)
  | .gattsSubscribed handle chr => silent (gattsSubscribed ble handle chr)
  | .linkStart link role name => linkSilent (linkStart ble link role name)
  | .linkStop link handle => linkSilent (linkStop ble link handle)
  | .linkSend link handle data => silent (linkSend ble link handle data)
  | .linkPeerReady link handle => silent (linkPeerReady ble link handle)

/-- The operation is about a connection whose information overruns the buffer. -/
def Overruns (ble : Peer δ) : BleRequest → Link δ → Prop
  | .connInfo handle => InfoOverruns ble handle
  | .isConnected handle => InfoOverruns ble handle
  | _ => fun _ => False

/-- Only bytes of the buffer are touched and no payload is reported that was not received,
except from certain states; otherwise a program does what another one does. -/
def Bounded (ble : Peer δ) (overruns : Link δ → Prop) (p : Prog (Scratched δ) (ℤ×ℕ))
    (q : Prog (Link δ) ℤ) : Prop :=
  ∀ s,∃ code reported t events,p ⟨s,[]⟩=(some (code,reported),t) ∧ q s=(some code,t.link) ∧
    t.link.log=s.log++events ∧
    (((∀ count∈t.touched,count≤ ble.scratchSize) ∧ reported≤ receivedBytes events) ↔
      ¬overruns s)

theorem bounded_reporting {overruns : Link δ → Prop} {count : α → ℕ}
    {p : Prog (Scratched δ) (Except ℤ α)} {q : Prog (Link δ) (Except ℤ α)}
    (hp : TracksUnless ble overruns p q) (hq : Adds 0 (counted count) q) :
    Bounded ble overruns (reporting count p) (codeOf q) := by
  intro s
  obtain ⟨ends,hrun,hends⟩ := hp ⟨s,[]⟩
  obtain ⟨result,t,events,hq,hlog,-,hle⟩ := hq.returns s
  rw [Nat.zero_add] at hle
  rw [hq,List.nil_append] at hrun
  unfold reporting codeOf
  rw [bind_run hrun,bind_run hq]
  cases result with
  | error code =>
    exact ⟨code,0,_,events,rfl,rfl,hlog,fun h => hends.mp h.1,fun h => ⟨hends.mpr h,hle⟩⟩
  | ok a =>
    exact ⟨0,count a,_,events,rfl,rfl,hlog,fun h => hends.mp h.1,fun h => ⟨hends.mpr h,hle⟩⟩

/-- An operation records what its code does. -/
theorem keeps_of_codeOf {q : Prog (Link δ) (Except ℤ α)} (h : Keeps (codeOf q)) : Keeps q := by
  intro s
  have hs := h s
  unfold codeOf at hs
  rw [wp_bind] at hs
  refine wp_post hs ?_
  intro result t hrest
  cases result <;> exact hrest

theorem bounded_silent {overruns : Link δ → Prop} {p : Prog (Scratched δ) (Except ℤ α)}
    {q : Prog (Link δ) (Except ℤ α)} (hp : TracksUnless ble overruns p q)
    (hq : Keeps (codeOf q)) : Bounded ble overruns (silent p) (codeOf q) := by
  refine bounded_reporting hp (adds_of_keeps (keeps_of_codeOf hq) fun result => ?_)
  cases result <;> exact Nat.le_refl 0

/-- An operation that stays in the buffer and reports nothing. -/
theorem bounded_tracks {p : Prog (Scratched δ) (Except ℤ α)} {q : Prog (Link δ) (Except ℤ α)}
    (hp : Tracks ble p q) (hq : Keeps (codeOf q)) :
    Bounded ble (fun _ => False) (silent p) (codeOf q) := bounded_silent hp.unless hq

theorem bounded_linkSilent {p : Prog (Scratched δ) (Except ℤ ℕ×BleLink)}
    {q : Prog (Link δ) (Except ℤ ℕ×BleLink)} (hp : Tracks ble p q) (hq : Keeps q) :
    Bounded ble (fun _ => False) (linkSilent p) (linkCode q) := by
  intro s
  obtain ⟨ends,hrun,hends⟩ := hp ⟨s,[]⟩
  obtain ⟨⟨result,link⟩,t,events,hq,hlog,-⟩ := hq.returns s
  rw [hq,List.nil_append] at hrun
  unfold linkSilent linkCode
  rw [bind_run hrun,bind_run hq]
  cases result with
  | error code =>
    exact ⟨code,0,_,events,rfl,rfl,hlog,fun _ => not_false,fun _ => ⟨hends,Nat.zero_le _⟩⟩
  | ok value =>
    exact ⟨value,0,_,events,rfl,rfl,hlog,fun _ => not_false,fun _ => ⟨hends,Nat.zero_le _⟩⟩

/-- Every operation returns, whatever the transport answers. It touches only bytes of the
scratch buffer and reports no more payload than it received exactly if it is not about a
connection whose information overruns the buffer. -/
theorem scratch_bounded_iff (ble : Peer δ) (request : BleRequest) (s : Link δ) :
    ∃ code reported t events,
      performScratch ble request ⟨s,[]⟩=(some (code,reported),t) ∧
      performBle ble request s=(some code,t.link) ∧ t.link.log=s.log++events ∧
      (((∀ count∈t.touched,count≤ ble.scratchSize) ∧ reported≤ receivedBytes events) ↔
        ¬Overruns ble request s) := by
  revert s
  change Bounded ble (Overruns ble request) (performScratch ble request)
    (performBle ble request)
  have hkeeps := keeps_performBle ble request
  cases request with
  | scanStart => exact bounded_tracks (tracks_scanStart ble _) hkeeps
  | scanStop => exact bounded_tracks (tracks_onLink _) hkeeps
  | scanCollect =>
    exact bounded_reporting (tracks_scanCollect ble _ _ _).unless
      (counts_clBleScanCollect ble _ _ _)
  | scanStartEx => exact bounded_tracks (tracks_scanStartEx ble _ _ _ _) hkeeps
  | connect => exact bounded_tracks (tracks_connect ble _) hkeeps
  | disconnect => exact bounded_tracks (tracks_disconnect ble _) hkeeps
  | probeDeviceName =>
    exact bounded_reporting (tracks_probeDeviceName ble _ _).unless
      (counts_clBleProbeDeviceName ble _ _)
  | readChr16 =>
    exact bounded_reporting (tracks_readChr16 ble _ _ _).unless (counts_clBleReadChr16 ble _ _ _)
  | writeChr16 => exact bounded_tracks (tracks_writeChr16 ble _ _ _) hkeeps
  | collectNotifyChr16 =>
    exact bounded_reporting (tracks_collectNotifyChr16 ble _ _ _ _).unless
      (counts_clBleCollectNotifyChr16 ble _ _ _ _)
  | gattFindChr16 => exact bounded_tracks (tracks_gattFindChr16 ble _ _ _ _) hkeeps
  | gattFindService => exact bounded_tracks (tracks_gattFindService ble _ _ _ _) hkeeps
  | gattFindChr => exact bounded_tracks (tracks_gattFindChr ble _ _ _ _) hkeeps
  | gattFindDesc => exact bounded_tracks (tracks_gattFindDesc ble _ _ _ _) hkeeps
  | gattFindService128 => exact bounded_tracks (tracks_gattFindService128 ble _ _ _ _) hkeeps
  | gattFindChr128 => exact bounded_tracks (tracks_gattFindChr128 ble _ _ _ _) hkeeps
  | gattFindDesc128 => exact bounded_tracks (tracks_gattFindDesc128 ble _ _ _ _) hkeeps
  | gattRead =>
    exact bounded_reporting (tracks_gattRead ble _ _ _ (elsewhere_le _)).unless
      (counts_clBleGattRead ble _ _ _)
  | gattWrite => exact bounded_tracks (tracks_gattWrite ble _ _ _) hkeeps
  | gattNotify => exact bounded_tracks (tracks_gattNotify ble _ _ _) hkeeps
  | gattSubscribe => exact bounded_tracks (tracks_gattSubscribe ble _ _ _ _ _) hkeeps
  | gattSubscribeChr16 => exact bounded_tracks (tracks_gattSubscribeChr16 ble _ _ _ _ _) hkeeps
  | gattReadLong =>
    exact bounded_reporting (tracks_gattReadLong ble _ _ _ _).unless
      (counts_clBleGattReadLong ble _ _ _ _)
  | gattWriteLong => exact bounded_tracks (tracks_gattWriteLong ble _ _ _ _) hkeeps
  | eventNext =>
    exact bounded_reporting (tracks_eventNext ble _).unless (counts_clBleEventNext ble _)
  | connUpdate => exact bounded_tracks (tracks_connUpdate ble _ _ _ _ _) hkeeps
  | exchangeMtu => exact bounded_tracks (tracks_exchangeMtu ble _) hkeeps
  | connInfo => exact bounded_silent (tracksUnless_connInfo ble _) hkeeps
  | isConnected => exact bounded_silent (tracksUnless_isConnected ble _) hkeeps
  | securityConfig => exact bounded_tracks (tracks_securityConfig ble _) hkeeps
  | pair => exact bounded_tracks (tracks_pair ble _ _ _) hkeeps
  | passkeyReply => exact bounded_tracks (tracks_passkeyReply ble _ _) hkeeps
  | gattsReset => exact bounded_tracks (tracks_onLink _) hkeeps
  | gattsAddService16 => exact bounded_tracks (tracks_gattsAddService ble _ _ _) hkeeps
  | gattsAddService128 => exact bounded_tracks (tracks_gattsAddService ble _ _ _) hkeeps
  | gattsAddInclude => exact bounded_tracks (tracks_gattsAddInclude ble _ _) hkeeps
  | gattsAddChr16 => exact bounded_tracks (tracks_gattsAddAttr ble _ _ _ _ _ _) hkeeps
  | gattsAddChr128 => exact bounded_tracks (tracks_gattsAddAttr ble _ _ _ _ _ _) hkeeps
  | gattsAddDesc16 => exact bounded_tracks (tracks_gattsAddAttr ble _ _ _ _ _ _) hkeeps
  | gattsAddDesc128 => exact bounded_tracks (tracks_gattsAddAttr ble _ _ _ _ _ _) hkeeps
  | gattsStart => exact bounded_tracks (tracks_onLink _) hkeeps
  | gattsStop => exact bounded_tracks (tracks_onLink _) hkeeps
  | advStart => exact bounded_tracks (tracks_advStart ble _) hkeeps
  | advStop => exact bounded_tracks (tracks_onLink _) hkeeps
  | gattsNotify => exact bounded_tracks (tracks_gattsNotify ble _ _ _) hkeeps
  | gattsSetValue => exact bounded_tracks (tracks_gattsSetValue ble _ _) hkeeps
  | gattsGetValue =>
    exact bounded_reporting (tracks_gattsGetValue ble _ _ _).unless
      (counts_clBleGattsGetValue ble _ _ _)
  | gattsSubscribed => exact bounded_tracks (tracks_gattsSubscribed ble _ _) hkeeps
  | linkStart =>
    exact bounded_linkSilent (tracks_linkStart ble _ _ _) (keeps_clBleLinkStart ble _ _ _)
  | linkStop => exact bounded_linkSilent (tracks_linkStop ble _ _) (keeps_clBleLinkStop ble _ _)
  | linkSend => exact bounded_tracks (tracks_linkSend ble _ _ _) hkeeps
  | linkPeerReady => exact bounded_tracks (tracks_linkPeerReady ble _ _) hkeeps

end Requests

/-- The header of a response to the first command of a client that asks about a connection,
with the thirty-two bytes of the information. -/
def infoResponse : ClpHeader :=
  ⟨clpTypeResponse,clpChBle,clpBleConnInfo,clpStatusOk,32,1,0,0⟩

/-- After the five words of the command, it is answered. -/
def infoScript : List UInt32 :=
  [0,0,0,0,0]++clpEncodeHeaderWords infoResponse++[0,0,0,0,0,0,0,0]

/-- A buffer with room for the request is touched beyond its end by the answer. -/
theorem scratch_overrun :
    ¬∀ (δ : Type) (ble : Peer δ) (request : BleRequest) (s : Link δ) (code : ℤ)
      (reported : ℕ) (t : Scratched δ) (events : List LinkEvent),ble.scratchSize≠0 →
      performScratch ble request ⟨s,[]⟩=(some (code,reported),t) →
      t.link.log=s.log++events →
      (∀ count∈t.touched,count≤ ble.scratchSize) ∧ reported≤ receivedBytes events := by
  intro hall
  have htouched : 32∈(performScratch smallPeer (.connInfo 1)
      ⟨scriptLink infoScript,[]⟩).2.touched := by decide +kernel
  rcases hrun : performScratch smallPeer (.connInfo 1) ⟨scriptLink infoScript,[]⟩ with
    ⟨_ | ⟨code,reported⟩,t⟩
  · have hreturns : (performScratch smallPeer (.connInfo 1)
        ⟨scriptLink infoScript,[]⟩).1.isSome=true := by decide +kernel
    rw [hrun] at hreturns
    cases hreturns
  · rw [hrun] at htouched
    have hle := (hall _ _ _ _ _ _ _ _ (by decide) hrun (List.nil_append _).symm).1 32 htouched
    exact absurd hle (by decide)

end ChisLink.BleScratchReports
