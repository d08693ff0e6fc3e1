import ChisLink.BleConnections
import ChisLink.BleScratch

/-!
# Bounds of the scratch buffer

With the record of the scratch buffer every operation does what it does without it. Each
declares enough bytes for its request and for the answer that it reads to the buffer,
the information about a connection apart. No operation reports more payload than it
received.
-/

namespace ChisLink.BleScratchBounds

open DriverPrograms WireProtocol StorageClient StorageBoundary WireCommands ClientExchange
  BleClient ClientBoundary BleConnections BleScratch

variable {δ α β : Type} {ble : Peer δ}

/-- A program does what another one does, and touches only bytes of the buffer. -/
def Tracks (ble : Peer δ) (p : Prog (Scratched δ) α) (q : Prog (Link δ) α) : Prop :=
  ∀ s,∃ ends,p s=((q s.link).1,⟨(q s.link).2,s.touched++ends⟩) ∧
    ∀ count∈ends,count≤ ble.scratchSize

section Rules

theorem tracks_onLink (q : Prog (Link δ) α) : Tracks ble (onLink q) q := by
  intro s
  refine ⟨[],?_,fun _ h => absurd h List.not_mem_nil⟩
  rw [List.append_nil]
  rfl

theorem tracks_pure (a : α) : Tracks ble (pure a) (pure a) := tracks_onLink (pure a)

theorem tracks_refuseArgs (code : ℤ) :
    Tracks ble (refuseArgs code : Prog (Scratched δ) (Except ℤ α)) (refuse code) :=
  tracks_pure _

/-- Touching bytes of the buffer does nothing else. -/
theorem tracks_touch {count : ℕ} (h : count≤ ble.scratchSize) :
    Tracks ble (touch count) (pure ()) := by
  intro s
  refine ⟨[count],rfl,fun c hc => ?_⟩
  rw [List.mem_singleton.mp hc]
  exact h

theorem Tracks.bind {p : Prog (Scratched δ) β} {q : Prog (Link δ) β}
    {f : β → Prog (Scratched δ) α} {g : β → Prog (Link δ) α} (hp : Tracks ble p q)
    (hf : ∀ b,Tracks ble (f b) (g b)) : Tracks ble (p >>= f) (q >>= g) := by
  intro s
  obtain ⟨first,hrun,hfirst⟩ := hp s
  rcases hq : q s.link with ⟨_ | b,t⟩
  · rw [hq] at hrun
    refine ⟨first,?_,hfirst⟩
    rw [bind_stuck hrun,bind_stuck hq]
  · rw [hq] at hrun
    obtain ⟨second,hrun',hsecond⟩ := hf b ⟨t,s.touched++first⟩
    refine ⟨first++second,?_,?_⟩
    · rw [bind_run hrun,bind_run hq,hrun',List.append_assoc]
    · intro count hcount
      exact (List.mem_append.mp hcount).elim (hfirst count) (hsecond count)

/-- Touching bytes first. -/
theorem Tracks.touched {count : ℕ} (h : count≤ ble.scratchSize) {p : Prog (Scratched δ) α}
    {q : Prog (Link δ) α} (hp : Tracks ble p q) : Tracks ble (touch count >>= fun _ => p) q :=
  (tracks_touch h).bind fun _ => hp

theorem Tracks.thenDo {p : Prog (Scratched δ) (Except ℤ α)} {q : Prog (Link δ) (Except ℤ α)}
    {f : α → Prog (Scratched δ) (Except ℤ β)} {g : α → Prog (Link δ) (Except ℤ β)}
    (hp : Tracks ble p q) (hf : ∀ a,Tracks ble (f a) (g a)) :
    Tracks ble (thenDo p f) (andThen q g) := by
  refine hp.bind fun result => ?_
  cases result with
  | error code => exact tracks_pure _
  | ok a => exact hf a

theorem Tracks.finallyDo {p : Prog (Scratched δ) (Except ℤ α)}
    {q : Prog (Link δ) (Except ℤ α)} {p' : Prog (Scratched δ) (Except ℤ β)}
    {q' : Prog (Link δ) (Except ℤ β)} (hp : Tracks ble p q) (hp' : Tracks ble p' q') :
    Tracks ble (finallyDo p p') (andFinally q q') := by
  refine hp.bind fun result => hp'.bind fun cleaned => ?_
  cases result with
  | error code => exact tracks_pure _
  | ok a => cases cleaned <;> exact tracks_pure _

theorem Tracks.ite {c : Prop} [Decidable c] {p p' : Prog (Scratched δ) α}
    {q q' : Prog (Link δ) α} (hp : Tracks ble p q) (hp' : Tracks ble p' q') :
    Tracks ble (if c then p else p') (if c then q else q') := by
  by_cases h : c
  · rw [if_pos h,if_pos h]
    exact hp
  · rw [if_neg h,if_neg h]
    exact hp'

theorem tracks_bleScratch {required : ℕ} {p : Prog (Scratched δ) (Except ℤ α)}
    {q : Prog (Link δ) (Except ℤ α)} (h : required≤ ble.scratchSize → Tracks ble p q) :
    Tracks ble (bleScratch ble required p) (withScratch ble required q) := by
  unfold bleScratch withScratch
  by_cases hsmall : ble.scratchSize< required
  · rw [if_pos hsmall,if_pos hsmall]
    exact tracks_refuseArgs _
  · rw [if_neg hsmall,if_neg hsmall]
    exact h (Nat.not_lt.mp hsmall)

/-- An exchange stays in the buffer if its request and its answer do. -/
theorem tracks_scratchExchange {required : ℕ} {opcode : UInt8} {request : List UInt8}
    {data : List (List UInt8)} {landing : Landing}
    {finish : ClpHeader → Prog (Link δ) (Except ℤ α)} (hrequest : request.length≤ required)
    (hlanding : required≤ ble.scratchSize → ∀ response,landing response≤ ble.scratchSize) :
    Tracks ble (scratchExchange ble required opcode request data landing finish)
      (withScratch ble required (exchange ble clpChBle opcode (request::data) finish)) := by
  refine tracks_bleScratch fun hrequired => ?_
  refine Tracks.touched (Nat.le_trans hrequest hrequired) ?_
  refine (tracks_onLink _).bind fun answer => ?_
  cases answer with
  | error code => exact tracks_pure _
  | ok response => exact Tracks.touched (hlanding hrequired response) (tracks_onLink _)

theorem elsewhere_le (size : ℕ) (response : ClpHeader) : elsewhere response≤ size :=
  Nat.zero_le _

theorem exactly_le {expected : UInt32} {size : ℕ} (h : expected.toNat≤ size)
    (response : ClpHeader) : exactly expected response≤ size := by
  unfold exactly
  split
  · exact h
  · exact Nat.zero_le _

theorem within_le {low high : UInt32} {size : ℕ} (h : high.toNat≤ size)
    (response : ClpHeader) : within low high response≤ size := by
  unfold within
  split
  · exact Nat.zero_le _
  · next hbounds =>
    obtain ⟨-,hrest⟩ := not_or.mp hbounds
    have hle := (not_or.mp hrest).2
    rw [UInt32.lt_iff_toNat_lt] at hle
    omega

/-- An exchange whose answer is not read to the buffer. -/
theorem tracks_elsewhere {required : ℕ} {opcode : UInt8} {request : List UInt8}
    {data : List (List UInt8)} {finish : ClpHeader → Prog (Link δ) (Except ℤ α)}
    (hrequest : request.length≤ required) :
    Tracks ble (scratchExchange ble required opcode request data elsewhere finish)
      (withScratch ble required (exchange ble clpChBle opcode (request::data) finish)) :=
  tracks_scratchExchange hrequest fun _ => elsewhere_le _

/-- An exchange whose answer is no longer than what was asked for. -/
theorem tracks_exactly {required : ℕ} {opcode : UInt8} {request : List UInt8}
    {data : List (List UInt8)} {expected : UInt32}
    {finish : ClpHeader → Prog (Link δ) (Except ℤ α)} (hrequest : request.length≤ required)
    (hexpected : expected.toNat≤ required) :
    Tracks ble (scratchExchange ble required opcode request data (exactly expected) finish)
      (withScratch ble required (exchange ble clpChBle opcode (request::data) finish)) :=
  tracks_scratchExchange hrequest fun hrequired =>
    exactly_le (Nat.le_trans hexpected hrequired)

end Rules

section Operations

variable (ble)

theorem tracks_scanStart (durationMs : UInt16) :
    Tracks ble (scanStart ble durationMs) (clBleScanStart ble durationMs) :=
  tracks_elsewhere (Nat.le_refl 4)

theorem tracks_connect (addr : BleAddr) :
    Tracks ble (connect ble addr) (clBleConnect ble addr) := by
  refine tracks_exactly ?_ (by decide)
  rw [List.length_append,List.Vector.toList_length]
  exact Nat.le_refl 8

theorem tracks_disconnect (handle : UInt16) :
    Tracks ble (disconnect ble handle) (clBleDisconnect ble handle) :=
  (tracks_refuseArgs _).ite (tracks_elsewhere (Nat.le_refl 4))

theorem tracks_gattFindChr16 (handle startHandle endHandle uuid16 : UInt16) :
    Tracks ble (gattFindChr16 ble handle startHandle endHandle uuid16)
      (clBleGattFindChr16 ble handle startHandle endHandle uuid16) :=
  (tracks_refuseArgs _).ite
    ((tracks_refuseArgs _).ite (tracks_exactly (Nat.le_refl 12) (by decide)))

theorem tracks_gattFindService (handle startHandle endHandle uuid16 : UInt16) :
    Tracks ble (gattFindService ble handle startHandle endHandle uuid16)
      (clBleGattFindService ble handle startHandle endHandle uuid16) :=
  (tracks_refuseArgs _).ite (tracks_exactly (Nat.le_refl 12) (by decide))

theorem tracks_gattFindChr (handle startHandle endHandle uuid16 : UInt16) :
    Tracks ble (gattFindChr ble handle startHandle endHandle uuid16)
      (clBleGattFindChr ble handle startHandle endHandle uuid16) :=
  (tracks_refuseArgs _).ite (tracks_exactly (Nat.le_refl 12) (by decide))

theorem tracks_gattFindDesc (handle chrValueHandle endHandle uuid16 : UInt16) :
    Tracks ble (gattFindDesc ble handle chrValueHandle endHandle uuid16)
      (clBleGattFindDesc ble handle chrValueHandle endHandle uuid16) :=
  (tracks_refuseArgs _).ite (tracks_exactly (Nat.le_refl 12) (by decide))

/-- A read stays in the buffer if what it reads to the buffer does. -/
theorem tracks_gattRead {landing : Landing} (handle attr : UInt16) (capacity : UInt32)
    (hlanding : ∀ response,landing response≤ ble.scratchSize) :
    Tracks ble (gattRead ble landing handle attr capacity)
      (clBleGattRead ble handle attr capacity) :=
  (tracks_refuseArgs _).ite (tracks_scratchExchange (Nat.le_refl 12) fun _ => hlanding)

theorem tracks_gattWrite (handle attr : UInt16) (data : List UInt8) :
    Tracks ble (gattWrite ble handle attr data) (clBleGattWrite ble handle attr data) :=
  (tracks_refuseArgs _).ite (tracks_exactly (Nat.le_refl 8) (by decide))

theorem tracks_gattNotify (handle attr : UInt16) (enable : Bool) :
    Tracks ble (gattNotify ble handle attr enable) (clBleGattNotify ble handle attr enable) :=
  (tracks_refuseArgs _).ite (tracks_elsewhere (Nat.le_refl 12))

theorem tracks_gattSubscribe (handle valueHandle endHandle : UInt16) (enable indicate : Bool) :
    Tracks ble (gattSubscribe ble handle valueHandle endHandle enable indicate)
      (clBleGattSubscribe ble handle valueHandle endHandle enable indicate) := by
  refine (tracks_refuseArgs _).ite ((tracks_refuseArgs _).ite ?_)
  refine (tracks_gattFindDesc ble handle valueHandle _ _).thenDo fun desc => ?_
  refine (tracks_gattWrite ble handle desc.handle _).thenDo fun written => ?_
  exact (tracks_refuseArgs _).ite (tracks_gattNotify ble handle valueHandle enable)

theorem tracks_rangeOf (handle serviceUuid16 : UInt16) :
    Tracks ble (rangeOf ble handle serviceUuid16) (serviceRange ble handle serviceUuid16) :=
  (tracks_pure _).ite
    ((tracks_gattFindService ble handle _ _ _).thenDo fun _ => tracks_pure _)

theorem tracks_gattSubscribeChr16 (handle serviceUuid16 chrUuid16 : UInt16)
    (enable indicate : Bool) :
    Tracks ble (gattSubscribeChr16 ble handle serviceUuid16 chrUuid16 enable indicate)
      (clBleGattSubscribeChr16 ble handle serviceUuid16 chrUuid16 enable indicate) := by
  refine (tracks_refuseArgs _).ite ?_
  refine (tracks_rangeOf ble handle serviceUuid16).thenDo fun range => ?_
  refine (tracks_gattFindChr16 ble handle _ _ _).thenDo fun chr => ?_
  exact (tracks_gattSubscribe ble handle _ _ _ _).thenDo fun _ => tracks_pure _

/-- The next event has a header and as many bytes as were asked for. -/
theorem tracks_eventNext (maxData : ℕ) :
    Tracks ble (eventNext ble maxData) (clBleEventNext ble maxData) := by
  have hheader : clpBleEventHeaderBytes=12 := rfl
  have hmax : clpBleScanDataMaxBytes=31 := rfl
  unfold eventNext clBleEventNext
  by_cases hlong : clpBleScanDataMaxBytes< maxData
  · rw [if_pos hlong,if_pos hlong]
    exact tracks_refuseArgs _
  · rw [if_neg hlong,if_neg hlong]
    have hhigh : (UInt32.ofNat (clpBleEventHeaderBytes+maxData)).toNat=
        clpBleEventHeaderBytes+maxData :=
      UInt32.toNat_ofNat_of_lt' (by unfold UInt32.size; omega)
    refine tracks_scratchExchange ?_ fun hrequired => within_le ?_
    · change 4≤_
      omega
    · omega

theorem tracks_whileConnected (addr : BleAddr) {p : UInt16 → Prog (Scratched δ) (Except ℤ α)}
    {q : UInt16 → Prog (Link δ) (Except ℤ α)} (h : ∀ handle,Tracks ble (p handle) (q handle)) :
    Tracks ble (whileConnected ble addr p) (onConnection ble addr q) :=
  (tracks_connect ble addr).thenDo fun handle =>
    (h handle).finallyDo (tracks_disconnect ble handle)

/-- The name is read to the buffer after asking for it again. -/
theorem tracks_probeDeviceName (addr : BleAddr) (outSize : ℕ) :
    Tracks ble (probeDeviceName ble addr outSize) (clBleProbeDeviceName ble addr outSize) := by
  refine (tracks_refuseArgs _).ite (tracks_whileConnected ble addr fun handle => ?_)
  refine (tracks_gattFindChr16 ble handle _ _ _).thenDo fun chr => ?_
  refine tracks_bleScratch fun hrequired => ?_
  refine (tracks_gattRead ble handle _ _ (within_le ?_)).thenDo fun _ => tracks_pure _
  exact Nat.le_trans (by decide) hrequired

theorem tracks_readChr16 (addr : BleAddr) (uuid16 : UInt16) (capacity : UInt32) :
    Tracks ble (readChr16 ble addr uuid16 capacity) (clBleReadChr16 ble addr uuid16 capacity) := by
  refine (tracks_refuseArgs _).ite (tracks_whileConnected ble addr fun handle => ?_)
  refine (tracks_gattFindChr16 ble handle _ _ _).thenDo fun chr => ?_
  exact tracks_gattRead ble handle _ _ (elsewhere_le _)

theorem tracks_writeChr16 (addr : BleAddr) (uuid16 : UInt16) (data : List UInt8) :
    Tracks ble (writeChr16 ble addr uuid16 data) (clBleWriteChr16 ble addr uuid16 data) := by
  refine (tracks_refuseArgs _).ite (tracks_whileConnected ble addr fun handle => ?_)
  refine (tracks_gattFindChr16 ble handle _ _ _).thenDo fun chr => ?_
  exact tracks_gattWrite ble handle _ _

theorem tracks_subscribeEitherWay (handle valueHandle : UInt16) (enable : Bool) :
    Tracks ble (subscribeEitherWay ble handle valueHandle enable)
      (subscribeOrNotify ble handle valueHandle enable) := by
  refine (tracks_gattSubscribe ble handle valueHandle _ enable _).bind fun result => ?_
  cases result with
  | error code => exact (tracks_gattNotify ble handle valueHandle enable).ite (tracks_pure _)
  | ok _ => exact tracks_pure _

theorem tracks_gatherNotifications (valueHandle : UInt16) (capacity attempts : ℕ)
    (events : List BleEvent) :
    Tracks ble (gatherNotifications ble valueHandle capacity attempts events)
      (collectNotifications ble valueHandle capacity attempts events) := by
  induction attempts generalizing events with
  | zero => exact tracks_pure _
  | succ attempts ih =>
    refine (tracks_eventNext ble _).bind fun next => ?_
    cases next with
    | error code => exact (ih events).ite (tracks_pure _)
    | ok event => exact ih _

theorem tracks_collectNotifyChr16 (addr : BleAddr) (uuid16 : UInt16) (capacity : ℕ)
    (pollAttempts : UInt32) :
    Tracks ble (collectNotifyChr16 ble addr uuid16 capacity pollAttempts)
      (clBleCollectNotifyChr16 ble addr uuid16 capacity pollAttempts) := by
  refine (tracks_refuseArgs _).ite (tracks_whileConnected ble addr fun handle => ?_)
  refine (tracks_gattFindChr16 ble handle _ _ _).thenDo fun chr => ?_
  refine (tracks_subscribeEitherWay ble handle _ _).thenDo fun _ => ?_
  exact (tracks_gatherNotifications ble _ _ _ _).finallyDo
    (tracks_subscribeEitherWay ble handle _ _)

theorem tracks_gatherScan (capacity attempts : ℕ) (events : List BleEvent) :
    Tracks ble (gatherScan ble capacity attempts events)
      (collectScan ble capacity attempts events) := by
  induction attempts generalizing events with
  | zero => exact tracks_pure _
  | succ attempts ih =>
    refine (tracks_eventNext ble _).bind fun next => ?_
    cases next with
    | error code => exact (ih events).ite (tracks_pure _)
    | ok event => exact (tracks_pure _).ite (ih _)

theorem tracks_scanCollect (durationMs : UInt16) (capacity : ℕ) (pollAttempts : UInt32) :
    Tracks ble (scanCollect ble durationMs capacity pollAttempts)
      (clBleScanCollect ble durationMs capacity pollAttempts) :=
  (tracks_scanStart ble durationMs).thenDo fun _ =>
    (tracks_gatherScan ble capacity _ _).finallyDo (tracks_onLink _)

/-- A request with a long UUID has twenty-four bytes. -/
theorem length_find128 (handle startHandle endHandle : UInt16) (uuid128 : Uuid128) :
    (clBleBuildGattFind128Request handle startHandle endHandle uuid128).length=24 := by
  have huuid : uuid128.toList.length=16 := List.Vector.toList_length uuid128
  unfold clBleBuildGattFind128Request
  rw [List.length_append,huuid]
  rfl

theorem tracks_gattFindService128 (handle startHandle endHandle : UInt16) (uuid128 : Uuid128) :
    Tracks ble (gattFindService128 ble handle startHandle endHandle uuid128)
      (clBleGattFindService128 ble handle startHandle endHandle uuid128) :=
  tracks_exactly (length_find128 _ _ _ _).le (by decide)

theorem tracks_gattFindChr128 (handle startHandle endHandle : UInt16) (uuid128 : Uuid128) :
    Tracks ble (gattFindChr128 ble handle startHandle endHandle uuid128)
      (clBleGattFindChr128 ble handle startHandle endHandle uuid128) :=
  tracks_exactly (length_find128 _ _ _ _).le (by decide)

theorem tracks_gattFindDesc128 (handle startHandle endHandle : UInt16) (uuid128 : Uuid128) :
    Tracks ble (gattFindDesc128 ble handle startHandle endHandle uuid128)
      (clBleGattFindDesc128 ble handle startHandle endHandle uuid128) :=
  tracks_exactly (length_find128 _ _ _ _).le (by decide)

theorem tracks_scanStartEx (durationMs intervalUs windowUs : UInt16) (flags : UInt32) :
    Tracks ble (scanStartEx ble durationMs intervalUs windowUs flags)
      (clBleScanStartEx ble durationMs intervalUs windowUs flags) :=
  tracks_elsewhere (Nat.le_refl 16)

theorem tracks_connUpdate (handle intervalMin intervalMax latency timeout : UInt16) :
    Tracks ble (connUpdate ble handle intervalMin intervalMax latency timeout)
      (clBleConnUpdate ble handle intervalMin intervalMax latency timeout) :=
  (tracks_refuseArgs _).ite (tracks_elsewhere (Nat.le_refl 12))

theorem tracks_exchangeMtu (handle : UInt16) :
    Tracks ble (exchangeMtu ble handle) (clBleExchangeMtu ble handle) :=
  (tracks_refuseArgs _).ite (tracks_exactly (Nat.le_refl 6) (by decide))

theorem tracks_gattReadLong (handle attr offset : UInt16) (capacity : UInt32) :
    Tracks ble (gattReadLong ble handle attr offset capacity)
      (clBleGattReadLong ble handle attr offset capacity) :=
  (tracks_refuseArgs _).ite (tracks_elsewhere (Nat.le_refl 12))

theorem tracks_gattWriteLong (handle attr offset : UInt16) (data : List UInt8) :
    Tracks ble (gattWriteLong ble handle attr offset data)
      (clBleGattWriteLong ble handle attr offset data) :=
  (tracks_refuseArgs _).ite (tracks_exactly (Nat.le_refl 8) (by decide))

theorem tracks_securityConfig (config : BleSecurityConfig) :
    Tracks ble (securityConfig ble config) (clBleSecurityConfig ble config) :=
  (tracks_refuseArgs _).ite (tracks_elsewhere (Nat.le_refl 8))

theorem tracks_pair (handle : UInt16) (ioCaps bond : UInt8) :
    Tracks ble (pair ble handle ioCaps bond) (clBlePair ble handle ioCaps bond) :=
  (tracks_refuseArgs _).ite (tracks_elsewhere (Nat.le_refl 6))

theorem tracks_passkeyReply (handle : UInt16) (passkey : UInt32) :
    Tracks ble (passkeyReply ble handle passkey) (clBlePasskeyReply ble handle passkey) :=
  (tracks_refuseArgs _).ite (tracks_elsewhere (Nat.le_refl 8))

theorem tracks_gattsAddService (flags : UInt32) (uuid16 : UInt16) (uuid128 : Option Uuid128) :
    Tracks ble (gattsAddService ble flags uuid16 uuid128)
      (bleGattsAddService ble flags uuid16 uuid128) := by
  unfold gattsAddService bleGattsAddService
  obtain ⟨tail,htail⟩ : ∃ tail,tail=
      if flags &&& clpBleGattsUuid128=0 then some []
      else uuid128.map fun uuid => uuid.toList := ⟨_,rfl⟩
  dsimp only
  rw [← htail]
  cases tail with
  | none => exact tracks_refuseArgs _
  | some tail =>
    refine tracks_elsewhere ?_
    rw [List.length_append]
    exact Nat.le_refl _

theorem tracks_gattsAddInclude (service includedService : UInt16) :
    Tracks ble (gattsAddInclude ble service includedService)
      (clBleGattsAddInclude ble service includedService) :=
  (tracks_refuseArgs _).ite (tracks_elsewhere (Nat.le_refl 4))

theorem tracks_gattsAddAttr (opcode : UInt8) (parent : UInt16) (flags : UInt32)
    (uuid16 : UInt16) (uuid128 : Option Uuid128) (value : List UInt8) :
    Tracks ble (gattsAddAttr ble opcode parent flags uuid16 uuid128 value)
      (bleGattsAddAttr ble opcode parent flags uuid16 uuid128 value) := by
  refine (tracks_refuseArgs _).ite ?_
  obtain ⟨uuid,huuid⟩ : ∃ uuid,uuid=
      if flags &&& clpBleGattsUuid128=0 then some []
      else uuid128.map fun uuid => [uuid.toList] := ⟨_,rfl⟩
  dsimp only
  rw [← huuid]
  cases uuid with
  | none => exact tracks_refuseArgs _
  | some uuid => exact tracks_elsewhere (Nat.le_refl 16)

/-- Parts of one size, one after the other. -/
theorem length_flatMap_of_forall (f : α → List UInt8) (size : ℕ)
    (h : ∀ a,(f a).length=size) (items : List α) :
    (items.flatMap f).length=items.length*size := by
  induction items with
  | nil => rw [List.flatMap_nil,List.length_nil,List.length_nil,Nat.zero_mul]
  | cons a items ih =>
    rw [List.flatMap_cons,List.length_append,List.length_cons,h,ih,Nat.succ_mul,Nat.add_comm]

/-- The request to advertise has the length that is asked for. -/
theorem length_advRequest (config : BleAdvConfig) (name : List UInt8) :
    (advRequest config name).length=
      12+config.uuid16.length*2+config.uuid128.length*16+name.length := by
  have hshort : (config.uuid16.flatMap le16).length=config.uuid16.length*2 :=
    length_flatMap_of_forall le16 2 (fun _ => rfl) _
  have hlong : (config.uuid128.flatMap fun uuid => uuid.toList).length=
      config.uuid128.length*16 :=
    length_flatMap_of_forall _ 16 (fun uuid => List.Vector.toList_length uuid) _
  unfold advRequest
  simp only [List.length_append]
  rw [hshort,hlong]
  rfl

theorem tracks_advStart (config : BleAdvConfig) :
    Tracks ble (advStart ble config) (clBleAdvStart ble config) :=
  (tracks_refuseArgs _).ite (tracks_elsewhere (length_advRequest config _).le)

/-- Data follow a request if there are any. -/
theorem withData_eq (fixed data : List UInt8) :
    withData fixed data=fixed::(if data=[] then [] else [data]) := by
  unfold withData
  split <;> rfl

theorem tracks_gattsNotify (handle chr : UInt16) (data : List UInt8) :
    Tracks ble (gattsNotify ble handle chr data) (clBleGattsNotify ble handle chr data) := by
  refine (tracks_refuseArgs _).ite ?_
  rw [withData_eq]
  exact tracks_elsewhere (Nat.le_refl 8)

theorem tracks_gattsSetValue (attr : UInt16) (data : List UInt8) :
    Tracks ble (gattsSetValue ble attr data) (clBleGattsSetValue ble attr data) := by
  refine (tracks_refuseArgs _).ite ?_
  rw [withData_eq]
  exact tracks_elsewhere (Nat.le_refl 8)

theorem tracks_gattsGetValue (attr offset : UInt16) (capacity : UInt32) :
    Tracks ble (gattsGetValue ble attr offset capacity)
      (clBleGattsGetValue ble attr offset capacity) :=
  tracks_elsewhere (Nat.le_refl 8)

theorem tracks_gattsSubscribed (handle chr : UInt16) :
    Tracks ble (gattsSubscribed ble handle chr) (clBleGattsSubscribed ble handle chr) :=
  (tracks_refuseArgs _).ite (tracks_elsewhere (Nat.le_refl 8))

theorem tracks_setUpHost : Tracks ble (setUpHost ble) (hostServices ble) := by
  refine (tracks_onLink _).thenDo fun _ => ?_
  refine (tracks_gattsAddService ble _ _ _).thenDo fun svc => ?_
  refine (tracks_gattsAddAttr ble _ _ _ _ _ _).thenDo fun _ => ?_
  refine (tracks_gattsAddAttr ble _ _ _ _ _ _).thenDo fun tx => ?_
  exact (tracks_onLink _).thenDo fun _ => tracks_pure _

theorem tracks_lookForPeer (attempts : ℕ) :
    Tracks ble (lookForPeer ble attempts) (findPeer ble attempts) := by
  induction attempts with
  | zero => exact tracks_pure _
  | succ attempts ih =>
    refine (tracks_eventNext ble _).bind fun next => ?_
    cases next with
    | error code => exact tracks_pure _
    | ok event => exact (tracks_pure _).ite ((tracks_pure _).ite ih)

theorem tracks_giveUp (handle : UInt16) (code : ℤ) (link : BleLink) :
    Tracks ble (giveUp ble handle code link) (dropConnection ble handle code link) :=
  (tracks_disconnect ble handle).bind fun _ => tracks_pure _

theorem tracks_joinPeer (handle : UInt16) (link : BleLink) :
    Tracks ble (joinPeer ble handle link) (joinOn ble handle link) := by
  refine (tracks_gattFindService128 ble handle _ _ _).bind fun service => ?_
  cases service with
  | error code => exact tracks_giveUp ble handle code link
  | ok service =>
    refine (tracks_gattFindChr128 ble handle _ _ _).bind fun rx => ?_
    cases rx with
    | error code => exact tracks_giveUp ble handle code link
    | ok rx =>
      refine (tracks_gattFindChr128 ble handle _ _ _).bind fun tx => ?_
      cases tx with
      | error code => exact tracks_giveUp ble handle code _
      | ok tx =>
        refine (tracks_gattSubscribe ble handle _ _ _ _).bind fun subscribed => ?_
        cases subscribed with
        | error code => exact tracks_giveUp ble handle code _
        | ok _ => exact tracks_pure _

theorem tracks_startJoin (link : BleLink) :
    Tracks ble (startJoin ble link) (linkJoin ble link) := by
  refine (tracks_scanStartEx ble _ _ _ _).bind fun scanning => ?_
  cases scanning with
  | error code => exact tracks_pure _
  | ok _ =>
    refine (tracks_lookForPeer ble 600).bind fun found => ?_
    refine (tracks_onLink _).bind fun _ => ?_
    rcases found with _ | ⟨bytes,type⟩
    · exact tracks_pure _
    · refine (tracks_connect ble _).bind fun connected => ?_
      cases connected with
      | error code => exact tracks_pure _
      | ok handle => exact tracks_joinPeer ble handle link

theorem tracks_startHost (name : CString) (link : BleLink) :
    Tracks ble (startHost ble name link) (linkHost ble name link) := by
  refine (tracks_setUpHost ble).bind fun services => ?_
  cases services with
  | error code => exact tracks_pure _
  | ok tx =>
    refine (tracks_advStart ble _).bind fun advertised => ?_
    cases advertised <;> exact tracks_pure _

theorem tracks_linkStart (link : BleLink) (role : LinkRole) (name : CString) :
    Tracks ble (linkStart ble link role name) (clBleLinkStart ble link role name) := by
  refine (tracks_pure _).ite ?_
  cases role with
  | host => exact tracks_startHost ble name _
  | join => exact tracks_startJoin ble _
  | other => exact tracks_pure _

theorem tracks_linkStop (link : BleLink) (handle : UInt16) :
    Tracks ble (linkStop ble link handle) (clBleLinkStop ble link handle) := by
  unfold linkStop clBleLinkStop
  by_cases hhandle : handle≠0
  · simp only [if_pos hhandle]
    exact (tracks_disconnect ble handle).bind fun _ =>
      (tracks_onLink _).bind fun _ => (tracks_onLink _).bind fun _ => tracks_pure _
  · simp only [if_neg hhandle]
    exact (tracks_pure _).bind fun _ =>
      (tracks_onLink _).bind fun _ => (tracks_onLink _).bind fun _ => tracks_pure _

theorem tracks_linkSend (link : BleLink) (handle : UInt16) (data : List UInt8) :
    Tracks ble (linkSend ble link handle data) (clBleLinkSend ble link handle data) := by
  refine (tracks_refuseArgs _).ite ((tracks_gattsNotify ble _ _ _).ite ?_)
  exact ((tracks_gattWrite ble _ _ _).thenDo fun _ => tracks_pure _).ite (tracks_refuseArgs _)

theorem tracks_linkPeerReady (link : BleLink) (handle : UInt16) :
    Tracks ble (linkPeerReady ble link handle) (clBleLinkPeerReady ble link handle) :=
  (tracks_eventNext ble _).thenDo fun _ => tracks_pure _

end Operations

section ConnectionInfo

/-- The answer to a request for information about a connection is longer than the buffer. -/
def InfoOverruns (ble : Peer δ) (handle : UInt16) (s : Link δ) : Prop :=
  handle≠0 ∧ 4≤ ble.scratchSize ∧ ble.scratchSize< 32 ∧
    ∃ response t,commandAnswer ble.transport clpChBle clpBleConnInfo [le32 handle.toUInt32] s=
      (some (.ok response),t) ∧ responseOk response 32=true

/-- A program does what another one does, and touches only bytes of the buffer except
from certain states. -/
def TracksUnless (ble : Peer δ) (overruns : Link δ → Prop) (p : Prog (Scratched δ) α)
    (q : Prog (Link δ) α) : Prop :=
  ∀ s,∃ ends,p s=((q s.link).1,⟨(q s.link).2,s.touched++ends⟩) ∧
    ((∀ count∈ends,count≤ ble.scratchSize) ↔ ¬overruns s.link)

/-- No state is excepted. -/
theorem Tracks.unless {p : Prog (Scratched δ) α} {q : Prog (Link δ) α} (h : Tracks ble p q) :
    TracksUnless ble (fun _ => False) p q := by
  intro s
  obtain ⟨ends,hrun,hends⟩ := h s
  exact ⟨ends,hrun,fun _ => not_false,fun _ => hends⟩

/-- Going on with a result that touches nothing. -/
theorem TracksUnless.bind {overruns : Link δ → Prop} {p : Prog (Scratched δ) β}
    {q : Prog (Link δ) β} {f : β → Prog (Scratched δ) α} {g : β → Prog (Link δ) α}
    (hp : TracksUnless ble overruns p q) (hf : ∀ b,∃ a,f b=pure a ∧ g b=pure a) :
    TracksUnless ble overruns (p >>= f) (q >>= g) := by
  intro s
  obtain ⟨ends,hrun,hends⟩ := hp s
  refine ⟨ends,?_,hends⟩
  rcases hq : q s.link with ⟨_ | b,t⟩
  · rw [hq] at hrun
    rw [bind_stuck hrun,bind_stuck hq]
  · rw [hq] at hrun
    obtain ⟨a,hfa,hga⟩ := hf b
    rw [bind_run hrun,bind_run hq,hfa,hga]
    rfl

variable (ble)

/-- The information is read to the buffer behind a check for the request only. -/
theorem tracksUnless_connInfo (handle : UInt16) :
    TracksUnless ble (InfoOverruns ble handle) (connInfo ble handle)
      (clBleConnInfo ble handle) := by
  intro s
  unfold connInfo clBleConnInfo scratchExchange bleScratch withScratch
  have hnone : ∀ count∈([] : List ℕ),count≤ ble.scratchSize := fun _ h =>
    absurd h List.not_mem_nil
  by_cases hhandle : handle=0
  · refine ⟨[],?_,fun _ h => h.1 hhandle,fun _ => hnone⟩
    rw [if_pos hhandle,if_pos hhandle,List.append_nil]
    rfl
  by_cases hsmall : ble.scratchSize< 4
  · refine ⟨[],?_,fun _ h => absurd h.2.1 (Nat.not_le.mpr hsmall),fun _ => hnone⟩
    rw [if_neg hhandle,if_neg hhandle,if_pos hsmall,if_pos hsmall,List.append_nil]
    rfl
  rw [if_neg hhandle,if_neg hhandle,if_neg hsmall,if_neg hsmall]
  have hfour : 4≤ ble.scratchSize := Nat.not_lt.mp hsmall
  have hrequest : (touch (le32 handle.toUInt32).length : Prog (Scratched δ) Unit) s=
      (some (),⟨s.link,s.touched++[4]⟩) := rfl
  obtain ⟨answer,t,hanswer⟩ : ∃ answer t,commandAnswer ble.transport clpChBle clpBleConnInfo
      [le32 handle.toUInt32] s.link=(some answer,t) := by
    obtain ⟨answer,t,-,hrun,-⟩ := (emits_commandAnswer ble.transport).returns s.link
    exact ⟨answer,t,hrun⟩
  have hlink : (onLink (commandAnswer ble.transport clpChBle clpBleConnInfo
      [le32 handle.toUInt32]) : Prog (Scratched δ) _) ⟨s.link,s.touched++[4]⟩=
      (some answer,⟨t,s.touched++[4]⟩) := by
    change ((commandAnswer _ _ _ _ s.link).1,_)=_
    rw [hanswer]
  unfold exchange ClientExchange.andThen
  rw [bind_run hrequest,bind_run hlink,bind_run hanswer]
  cases answer with
  | error code =>
    refine ⟨[4],rfl,?_,?_⟩
    · rintro - ⟨-,-,-,response,u,hrun,-⟩
      rw [hanswer] at hrun
      cases hrun
    · rintro - count hcount
      rw [List.mem_singleton.mp hcount]
      exact hfour
  | ok response =>
    refine ⟨[4]++[exactly 32 response],?_,?_,?_⟩
    · rw [← List.append_assoc]
      rfl
    · rintro hall ⟨-,-,hshort,response',u,hrun,hok⟩
      rw [hanswer,Prod.mk.injEq,Option.some.injEq,Except.ok.injEq] at hrun
      obtain ⟨rfl,-⟩ := hrun
      have hlanding : exactly 32 response=32 := if_pos hok
      have hfit := hall (exactly 32 response) (by simp)
      omega
    · intro hfits count hcount
      rcases List.mem_pair.mp hcount with rfl | rfl
      · exact hfour
      · unfold exactly
        split
        next hok =>
          by_contra hlong
          exact hfits ⟨hhandle,hfour,Nat.not_le.mp hlong,response,t,hanswer,hok⟩
        next => exact Nat.zero_le _

/-- Whether a connection is active is read from this information. -/
theorem tracksUnless_isConnected (handle : UInt16) :
    TracksUnless ble (InfoOverruns ble handle) (isConnected ble handle)
      (clBleIsConnected ble handle) := by
  refine (tracksUnless_connInfo ble handle).bind fun info => ?_
  cases info <;> exact ⟨_,rfl,rfl⟩

end ConnectionInfo

end ChisLink.BleScratchBounds
