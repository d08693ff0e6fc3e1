import ChisLink.AnsweredExchange
import ChisLink.BleClient

/-!
# Receiving on the game link

A write of the peer reaches the host as an event with the length of the value and a
short preview. Longer values are fetched from the attribute, which keeps only the last
one. Writes arrive at any time, also while a command is on its way.
-/

namespace ChisLink.BleLinkIo

open DriverPrograms WireProtocol StorageClient StorageBoundary WireCommands ClientExchange
  AnsweringDevice AnsweredExchange BleClient

variable {δ : Type}

/-- Bytes before the preview in the data of a write event. -/
def clpBleGattsWriteEventHeaderBytes : ℕ := 4

/-- What `cl_ble_link_io_recv` does with an event. -/
def receiveEvent (ble : Peer δ) (link : BleLink) (handle : ℤ) (capacity : UInt32)
    (event : BleEvent) : Prog (Link δ) (Except ℤ (List UInt8)) :=
  if event.type=clpBleEventNone then pure (.ok [])
  else if event.type≠clpBleEventGattsWrite then
    if event.type≠clpBleEventGattData ∨ link.notifyAttr=0 ∨ event.attrHandle≠link.notifyAttr then
      pure (.ok [])
    else pure (.ok (event.data.take capacity.toNat))
  else if event.data.length<clpBleGattsWriteEventHeaderBytes then pure (.ok [])
  else if (loadLe32 (event.data.take 2)).toUInt16≠UInt16.ofNat handle.toNat then pure (.ok [])
  else
    let valueLength := (loadLe32 ((event.data.drop 2).take 2)).toUInt16
    let take := min valueLength.toUInt32 capacity
    if event.data.length-clpBleGattsWriteEventHeaderBytes<take.toNat then
      clBleGattsGetValue ble event.attrHandle 0 take
    else pure (.ok ((event.data.drop clpBleGattsWriteEventHeaderBytes).take take.toNat))

/-- The function `cl_ble_link_io_recv`: the bytes received, none if there is nothing. -/
def clBleLinkIoRecv (ble : Peer δ) (link : BleLink) (handle : ℤ) (capacity : UInt32) :
    Prog (Link δ) (Except ℤ (List UInt8)) :=
  if handle≤0 ∨ capacity=0 then refuse (-1)
  else
    andThen (clBleEventNext ble clpBleScanDataMaxBytes)
      (receiveEvent ble link handle capacity)

section Server

/-- An event that is not about a value. -/
def OtherEvent (payload : List UInt8) : Prop :=
  payload.length≤43 ∧ payload.getD 0 0≠clpBleEventGattsWrite ∧
    payload.getD 0 0≠clpBleEventGattData

/-- What raises an event at the host. -/
inductive Arrival where
  /-- The peer writes a value. -/
  | wrote (value : List UInt8)
  /-- Anything else. -/
  | other (payload : List UInt8) (h : OtherEvent payload)

/-- The value of a write. -/
def Arrival.value : Arrival → Option (List UInt8)
  | .wrote value => some value
  | .other _ _ => none

/-- The values written, in order. -/
def writesOf (arrivals : List Arrival) : List (List UInt8) := arrivals.filterMap Arrival.value

/-- The side of the microcontroller: what is known of a device about the game link. -/
structure LinkServer (δ : Type) where
  /-- No command is on its way. -/
  ready : δ → Prop
  /-- All arrivals so far. -/
  history : δ → List Arrival
  /-- How many of their events were taken. -/
  taken : δ → ℕ
  /-- Arrivals before the next command is carried out. -/
  arriving : δ → List Arrival
  /-- Something arrives between commands. -/
  arrive : Arrival → δ → δ
  /-- Length of a preview. -/
  preview : ℕ

variable (m : LinkServer δ)

/-- Arrivals when the next command is carried out. -/
def LinkServer.upcoming (d : δ) : List Arrival := m.history d++m.arriving d

/-- The attribute then: the last value written. -/
def LinkServer.stored (d : δ) : List UInt8 := (writesOf (m.upcoming d)).getLastD []

/-- The arrival whose event is taken next, if there is one then. -/
def LinkServer.waiting (d : δ) : Option Arrival := (m.upcoming d)[m.taken d]?

/-- The answer that takes the event of an arrival. -/
def Raises (preview : ℕ) (peer rx : UInt16) (arrival : Arrival) (reply : Reply) : Prop :=
  reply.status=clpStatusOk ∧
    match arrival with
    | .wrote value => ∃ rssi addrType unused,unused.length=6 ∧ reply.payload=
        [clpBleEventGattsWrite,rssi,addrType,UInt8.ofNat (4+(value.take preview).length)]++
          le16 rx++unused++(le16 peer++le16 (UInt16.ofNat value.length)++value.take preview)
    | .other payload _ => reply.payload=payload

/-- The answer if there is no event: a refusal, or an event of no type. -/
def RaisesNone (reply : Reply) : Prop :=
  reply.status≠clpStatusOk ∨ reply.payload.getD 0 0=clpBleEventNone

/-- A device serves the link: it raises one event for each arrival, in order, and the
attribute keeps the last value that the peer wrote. -/
structure LinkServer.Serves (transport : Transport δ) (peer rx : UInt16) : Prop where
  /-- A preview fits in an event. -/
  short : m.preview+clpBleGattsWriteEventHeaderBytes≤ clpBleScanDataMaxBytes
  /-- An arrival is recorded. -/
  arrives : ∀ d,m.ready d → ∀ arrival,m.ready (m.arrive arrival d) ∧
    m.history (m.arrive arrival d)=m.history d++[arrival] ∧
    m.taken (m.arrive arrival d)=m.taken d
  /-- The next event is taken. -/
  events : ∀ d,m.ready d → Answers transport clpChBle clpBleEventNext
    (le32 (UInt32.ofNat clpBleScanDataMaxBytes)) (fun reply d' => m.ready d' ∧
      m.history d'=m.upcoming d ∧
      match m.waiting d with
      | none => RaisesNone reply ∧ m.taken d'=m.taken d
      | some arrival => Raises m.preview peer rx arrival reply ∧ m.taken d'=m.taken d+1) d
  /-- The attribute is read. -/
  values : ∀ d,m.ready d → ∀ capacity : UInt32,capacity.toNat≤ clpBleGattsValueMaxBytes →
    Answers transport clpChBle clpBleGattsGetValue (le16 rx++le16 0++le32 capacity)
      (fun reply d' => m.ready d' ∧ m.history d'=m.upcoming d ∧ m.taken d'=m.taken d ∧
        reply.status=clpStatusOk ∧ reply.payload=(m.stored d).take capacity.toNat) d

end Server

section Events

theorem toNat_min (a b : UInt32) : (min a b).toNat=min a.toNat b.toNat := by
  have hmin : min a b=if a≤b then a else b := rfl
  rw [hmin,min_def]
  simp only [UInt32.le_iff_toNat_le]
  split <;> rfl

/-- A half word is loaded as it was stored. -/
theorem loadLe32_le16 (word : UInt16) : (loadLe32 (le16 word)).toUInt16=word := by
  have hstore : le16 word=[(word.toUInt32 >>> 0).toUInt8,(word.toUInt32 >>> 8).toUInt8] := rfl
  rw [hstore]
  simp only [loadLe32,List.take,List.zipIdx,List.foldl]
  apply UInt16.toBitVec_inj.mp
  ext i hi
  simp [-UInt32.toUInt32_toUInt8,-UInt16.toUInt32_toUInt8,-UInt16.toUInt16_toUInt8,
    -UInt32.toUInt16_toUInt8]
  interval_cases i <;> simp

/-- The event of a write. -/
theorem parse_wrote {rssi addrType : UInt8} {peer rx : UInt16} {unused preview : List UInt8}
    {length : UInt16} (hunused : unused.length=6) (hpreview : preview.length≤27)
    {payload : List UInt8} (hpayload : payload=
      [clpBleEventGattsWrite,rssi,addrType,UInt8.ofNat (4+preview.length)]++le16 rx++unused++
        (le16 peer++le16 length++preview)) :
    payload.length=16+preview.length ∧ ∃ event,
      clBleParseEventResponse clpBleScanDataMaxBytes (UInt32.ofNat payload.length) payload=
        .ok event ∧ event.type=clpBleEventGattsWrite ∧ event.attrHandle=rx ∧
      event.data=le16 peer++le16 length++preview := by
  obtain ⟨a,b,c,d,e,f,rfl⟩ : ∃ a b c d e f,unused=[a,b,c,d,e,f] := by
    match unused,hunused with
    | [a,b,c,d,e,f],_ => exact ⟨a,b,c,d,e,f,rfl⟩
  have hlength : payload.length=16+preview.length := by
    rw [hpayload]
    simp only [List.length_append]
    change 4+2+6+(2+2+preview.length)=_
    omega
  have hbyte : (UInt8.ofNat (4+preview.length)).toNat=4+preview.length :=
    UInt8.toNat_ofNat_of_lt' (by change 4+preview.length<256; omega)
  have hnat : (UInt32.ofNat payload.length).toNat=payload.length :=
    UInt32.toNat_ofNat_of_lt' (by unfold UInt32.size; omega)
  have hthird : payload.getD 3 0=UInt8.ofNat (4+preview.length) := by rw [hpayload]; rfl
  have hdata : payload.drop clpBleEventHeaderBytes=le16 peer++le16 length++preview := by
    rw [hpayload]
    rfl
  have hattr : (payload.drop 4).take 2=le16 rx := by rw [hpayload]; rfl
  have htype : payload.getD 0 0=clpBleEventGattsWrite := by rw [hpayload]; rfl
  have hall : (le16 peer++le16 length++preview).length=4+preview.length := by
    simp only [List.length_append]
    change 2+2+_=_
    omega
  refine ⟨hlength,?_⟩
  unfold clBleParseEventResponse
  rw [hthird,hbyte,hnat,hlength,hdata,htype,hattr,loadLe32_le16]
  have hmax : clpBleScanDataMaxBytes=31 := rfl
  have hheader : clpBleEventHeaderBytes=12 := rfl
  dsimp only
  rw [if_neg (by omega)]
  refine ⟨_,rfl,rfl,?_,?_⟩
  · dsimp only
    rw [if_pos (by decide)]
  · dsimp only
    rw [List.take_of_length_le (by omega)]

/-- An event that was parsed has the type of its payload. -/
theorem parse_type {maxData : ℕ} {length : UInt32} {payload : List UInt8} {event : BleEvent}
    (h : clBleParseEventResponse maxData length payload=.ok event) :
    event.type=payload.getD 0 0 := by
  unfold clBleParseEventResponse at h
  dsimp only at h
  split at h
  · cases h
  · cases h
    rfl

end Events

section Receiving

variable {m : LinkServer δ} {ble : Peer δ} {peer rx : UInt16} {s : Link δ} {D : Link δ → Prop}

/-- A command was carried out: everything that was to arrive before it has arrived. -/
def CarriedOut (m : LinkServer δ) (s t : Link δ) : Prop :=
  m.ready t.device ∧ m.history t.device=m.upcoming s.device

/-- Taking the next event. -/
theorem wp_clBleEventNext (hm : m.Serves ble.transport peer rx) (hready : m.ready s.device)
    (hscratch : 43≤ ble.scratchSize) {Q : Except ℤ BleEvent → Link δ → Prop}
    (hnone : m.waiting s.device=none → ∀ result t,CarriedOut m s t →
      m.taken t.device=m.taken s.device →
      (∀ event,result=.ok event → event.type=clpBleEventNone) → Q result t)
    (hother : ∀ payload h,m.waiting s.device=some (.other payload h) → ∀ result t,
      CarriedOut m s t → m.taken t.device=m.taken s.device+1 →
      (∀ event,result=.ok event → event.type≠clpBleEventGattsWrite ∧
        event.type≠clpBleEventGattData) → Q result t)
    (hwrote : ∀ value,m.waiting s.device=some (.wrote value) → ∀ event t,CarriedOut m s t →
      m.taken t.device=m.taken s.device+1 → event.type=clpBleEventGattsWrite →
      event.attrHandle=rx → event.data=le16 peer++le16 (UInt16.ofNat value.length)++
        value.take m.preview → Q (.ok event) t) :
    wp (clBleEventNext ble clpBleScanDataMaxBytes) Q D s := by
  have hrequest : [le32 (UInt32.ofNat clpBleScanDataMaxBytes)].flatten=
      le32 (UInt32.ofNat clpBleScanDataMaxBytes) := rfl
  have hevents := hm.events s.device hready
  rw [← hrequest] at hevents
  unfold clBleEventNext
  rw [if_neg (Nat.lt_irrefl _)]
  refine wp_withScratch (fun hsmall => absurd hsmall (Nat.not_lt.mpr hscratch)) fun _ => ?_
  refine wp_exchange (by decide) hevents ?_
  intro seq reply t d hframe hd hreply
  obtain ⟨hd',hhistory,hcase⟩ := hreply
  cases hwaiting : m.waiting s.device with
  | none =>
    rw [hwaiting] at hcase
    obtain ⟨hraised,htaken⟩ := hcase
    refine wp_expectWithin hframe hd ?_ ?_
    · rintro hstatus - - u rfl
      refine hnone hwaiting _ u ⟨hd',hhistory⟩ htaken fun event hevent => ?_
      rw [parse_type hevent]
      exact hraised.resolve_left (not_not.mpr hstatus)
    · rintro - code u rfl
      exact hnone hwaiting _ u ⟨hd',hhistory⟩ htaken fun _ h => by cases h
  | some arrival =>
    rw [hwaiting] at hcase
    obtain ⟨⟨hstatus,hraised⟩,htaken⟩ := hcase
    cases arrival with
    | other payload h =>
      refine wp_expectWithin hframe hd ?_ ?_
      · rintro - - - u rfl
        refine hother payload h hwaiting _ u ⟨hd',hhistory⟩ htaken fun event hevent => ?_
        rw [parse_type hevent,hraised]
        exact h.2
      · rintro - code u rfl
        exact hother payload h hwaiting _ u ⟨hd',hhistory⟩ htaken fun _ h => by cases h
    | wrote value =>
      obtain ⟨rssi,addrType,unused,hunused,hpayload⟩ := hraised
      have hshort : (value.take m.preview).length≤27 := by
        have hfits : m.preview+4≤31 := hm.short
        rw [List.length_take]
        omega
      obtain ⟨hlength,event,hparse,htype,hattr,hdata⟩ := parse_wrote hunused hshort hpayload
      have hlow : (UInt32.ofNat clpBleEventHeaderBytes).toNat=12 := rfl
      have hhigh : (UInt32.ofNat (clpBleEventHeaderBytes+clpBleScanDataMaxBytes)).toNat=43 := rfl
      refine wp_expectWithin hframe hd ?_ ?_
      · rintro - - - u rfl
        rw [hparse]
        exact hwrote value hwaiting event u ⟨hd',hhistory⟩ htaken htype hattr hdata
      · intro hfails
        exact absurd ⟨hstatus,by omega,by omega⟩ hfails

/-- Reading the attribute. -/
theorem wp_clBleGattsGetValue (hm : m.Serves ble.transport peer rx) (hready : m.ready s.device)
    (hscratch : 43≤ ble.scratchSize) (capacity : UInt32)
    {Q : Except ℤ (List UInt8) → Link δ → Prop}
    (h : ∀ t,CarriedOut m s t → m.taken t.device=m.taken s.device →
      Q (.ok ((m.stored s.device).take (min capacity.toNat clpBleGattsValueMaxBytes))) t) :
    wp (clBleGattsGetValue ble rx 0 capacity) Q D s := by
  have hmax : clpBleGattsValueMaxBytes=512 := rfl
  have hmin : (min capacity (UInt32.ofNat clpBleGattsValueMaxBytes)).toNat=
      min capacity.toNat clpBleGattsValueMaxBytes := by
    rw [toNat_min]
    rfl
  have hvalues := hm.values s.device hready
    (min capacity (UInt32.ofNat clpBleGattsValueMaxBytes)) (by omega)
  unfold clBleGattsGetValue
  refine wp_withScratch (fun hsmall => absurd hsmall (by omega)) fun _ => ?_
  have hrequest : ∀ bytes : List UInt8,[bytes].flatten=bytes := fun bytes => by simp
  rw [← hrequest (le16 rx++le16 0++_)] at hvalues
  refine wp_exchange (by rw [hrequest]; exact Nat.le_of_ble_eq_true rfl) hvalues ?_
  intro seq reply t d hframe hd hreply
  obtain ⟨hd',hhistory,htaken,hstatus,hpayload⟩ := hreply
  have hlow : (0 : UInt32).toNat=0 := rfl
  have hlength : reply.payload.length≤
      (min capacity (UInt32.ofNat clpBleGattsValueMaxBytes)).toNat := by
    rw [hpayload]
    exact List.length_take_le _ _
  refine wp_expectWithin hframe hd ?_ ?_
  · rintro - - - u rfl
    rw [hpayload,hmin]
    exact h u ⟨hd',hhistory⟩ htaken
  · intro hfails
    exact absurd ⟨hstatus,by omega,hlength⟩ hfails

/-- The write that is taken next arrives as it was written: it is not empty, not longer
than an attribute, and if it does not fit in the preview, the attribute still begins
with it when it is read. -/
def Deliverable (m : LinkServer δ) (ble : Peer δ) (s : Link δ) (value : List UInt8) : Prop :=
  value≠[] ∧ value.length≤ clpBleGattsValueMaxBytes ∧
    (m.preview<value.length → ∀ event t,
      clBleEventNext ble clpBleScanDataMaxBytes s=(some (.ok event),t) →
      value <+: m.stored t.device)

/-- What a call delivers: its bytes, if there are any. -/
def received : Option (Except ℤ (List UInt8)) → List (List UInt8)
  | some (.ok (byte::bytes)) => [byte::bytes]
  | _ => []

theorem received_ok (bytes : List UInt8) :
    received (some (.ok bytes))=if bytes=[] then [] else [bytes] := by
  cases bytes <;> rfl

theorem length_received (result : Option (Except ℤ (List UInt8))) :
    (received result).length≤1 := by
  rcases result with _ | ⟨_ | _ | _⟩ <;> simp [received]

/-- Some bytes are delivered as a value exactly if they are it and it is not empty. -/
theorem received_ok_iff {bytes value : List UInt8} :
    received (some (.ok bytes))=[value] ↔ value≠[] ∧ bytes=value := by
  rw [received_ok]
  by_cases hempty : bytes=[]
  · rw [if_pos hempty]
    refine iff_of_false (by simp) ?_
    rintro ⟨hne,rfl⟩
    exact hne hempty
  · rw [if_neg hempty,List.singleton_inj]
    exact ⟨fun h => ⟨h ▸ hempty,h⟩,fun h => h.2⟩

/-- The fields of the event of a write. -/
theorem write_fields (peer length : UInt16) (preview : List UInt8) :
    let data := le16 peer++le16 length++preview
    data.length=4+preview.length ∧ (loadLe32 (data.take 2)).toUInt16=peer ∧
      (loadLe32 ((data.drop 2).take 2)).toUInt16=length ∧ data.drop 4=preview := by
  refine ⟨?_,loadLe32_le16 peer,loadLe32_le16 length,rfl⟩
  rw [List.length_append,List.length_append]
  change 2+2+_=_
  omega

/-- What is done with the event of a write. -/
theorem receiveEvent_wrote (ble : Peer δ) (link : BleLink) (capacity : UInt32)
    {event : BleEvent} {value preview : List UInt8} (htype : event.type=clpBleEventGattsWrite)
    (hdata : event.data=le16 peer++le16 (UInt16.ofNat value.length)++preview) :
    ∃ take : UInt32,take.toNat=min (value.length%65536) capacity.toNat ∧
      receiveEvent ble link peer.toNat capacity event=
        if preview.length<take.toNat then clBleGattsGetValue ble event.attrHandle 0 take
        else pure (.ok (preview.take take.toNat)) := by
  obtain ⟨hlength,hpeer,hvalue,hdrop⟩ := write_fields peer (UInt16.ofNat value.length) preview
  have hsame : UInt16.ofNat (peer.toNat : ℤ).toNat=peer := by
    rw [Int.toNat_natCast,UInt16.ofNat_toNat]
  have htake : (min (UInt16.ofNat value.length).toUInt32 capacity).toNat=
      min (value.length%65536) capacity.toNat := by
    rw [toNat_min,UInt16.toNat_toUInt32,UInt16.toNat_ofNat']
  refine ⟨_,htake,?_⟩
  unfold receiveEvent
  rw [htype,if_neg (by decide),if_neg (by decide),hdata,hpeer,hsame,hvalue]
  have hheader : clpBleGattsWriteEventHeaderBytes=4 := rfl
  rw [hheader,hlength,if_neg (by omega),if_neg (fun h => h rfl)]
  dsimp only
  rw [hdrop,Nat.add_sub_cancel_left]

/-- An event of another type is passed over. -/
theorem receiveEvent_other {link : BleLink} {handle : ℤ} {capacity : UInt32} {event : BleEvent}
    (hwrite : event.type≠clpBleEventGattsWrite) (hdata : event.type≠clpBleEventGattData) :
    receiveEvent ble link handle capacity event=pure (.ok []) := by
  unfold receiveEvent
  by_cases hnone : event.type=clpBleEventNone
  · rw [if_pos hnone]
  · rw [if_neg hnone,if_pos hwrite,if_pos (Or.inl hdata)]

/-- What a call leaves behind when nothing is waiting, or something that is no write. -/
structure PassedOver (m : LinkServer δ) (s t : Link δ) (taken : ℕ)
    (result : Option (Except ℤ (List UInt8))) : Prop where
  /-- The command was carried out. -/
  carriedOut : CarriedOut m s t
  /-- Events taken. -/
  taken : m.taken t.device=taken
  /-- Nothing is delivered. -/
  received : received result=[]

/-- What it leaves behind when a write is waiting. -/
structure Delivery (m : LinkServer δ) (ble : Peer δ) (capacity : UInt32) (s t : Link δ)
    (value : List UInt8) (result : Option (Except ℤ (List UInt8))) : Prop where
  /-- The device is ready again. -/
  ready : m.ready t.device
  /-- More may have arrived. -/
  history : m.upcoming s.device <+: m.history t.device
  /-- One event was taken. -/
  taken : m.taken t.device=m.taken s.device+1
  /-- Whether the value is delivered, if there is room for it. -/
  received : value.length≤ capacity.toNat →
    (received result=[value] ↔ Deliverable m ble s value)

/-- The arguments of a call are accepted. -/
theorem recv_eq (link : BleLink) (hpeer : peer≠0) {capacity : UInt32} (hcapacity : capacity≠0) :
    clBleLinkIoRecv ble link peer.toNat capacity=
      andThen (clBleEventNext ble clpBleScanDataMaxBytes)
        (receiveEvent ble link peer.toNat capacity) := by
  unfold clBleLinkIoRecv
  rw [if_neg]
  rintro (hzero | hzero)
  · refine hpeer (UInt16.toNat_inj.mp ?_)
    change peer.toNat=0
    omega
  · exact hcapacity hzero

/-- A call of receive that finds no write. -/
theorem recv_passes (hm : m.Serves ble.transport peer rx) (hready : m.ready s.device)
    (hscratch : 43≤ ble.scratchSize) (hpeer : peer≠0) {capacity : UInt32}
    (hcapacity : capacity≠0) (link : BleLink)
    (hwaiting : ∀ value,m.waiting s.device≠some (.wrote value)) :
    ∃ result t,clBleLinkIoRecv ble link peer.toNat capacity s=(result,t) ∧
      PassedOver m s t (m.taken s.device+(m.waiting s.device).toList.length) result := by
  have hevent : wp (clBleEventNext ble clpBleScanDataMaxBytes)
      (fun result t => (∀ event,result=.ok event → event.type≠clpBleEventGattsWrite ∧
        event.type≠clpBleEventGattData) ∧ CarriedOut m s t ∧
        m.taken t.device=m.taken s.device+(m.waiting s.device).toList.length)
      (fun _ => False) s := by
    refine wp_clBleEventNext hm hready hscratch ?_ ?_ ?_
    · intro hnone result t hcarried htaken htype
      refine ⟨fun event hevent => ?_,hcarried,by rw [hnone]; exact htaken⟩
      rw [htype event hevent]
      decide
    · intro payload h hother result t hcarried htaken htype
      exact ⟨htype,hcarried,by rw [hother]; exact htaken⟩
    · intro value hwrote
      exact absurd hwrote (hwaiting value)
  have hrecv : wp (clBleLinkIoRecv ble link peer.toNat capacity)
      (fun result t => PassedOver m s t
        (m.taken s.device+(m.waiting s.device).toList.length) (some result))
      (fun _ => False) s := by
    rw [recv_eq link hpeer hcapacity]
    unfold andThen
    refine wp_seq hevent ?_
    rintro result t ⟨hother,hcarried,htaken⟩
    cases result with
    | error code => exact ⟨hcarried,htaken,rfl⟩
    | ok event =>
      obtain ⟨hwrite,hdata⟩ := hother event rfl
      dsimp only
      rw [receiveEvent_other hwrite hdata]
      exact ⟨hcarried,htaken,rfl⟩
  obtain ⟨result,t,hrun,hpast⟩ := wp_total hrecv
  exact ⟨some result,t,hrun,hpast⟩

/-- The attribute at the fetch is that of the one event that is taken. -/
theorem deliverable_iff {value : List UInt8} {event : BleEvent} {t : Link δ}
    (hrun : clBleEventNext ble clpBleScanDataMaxBytes s=(some (.ok event),t)) :
    Deliverable m ble s value ↔ value≠[] ∧ value.length≤ clpBleGattsValueMaxBytes ∧
      (m.preview<value.length → value <+: m.stored t.device) := by
  unfold Deliverable
  rw [hrun]
  constructor
  · rintro ⟨hne,hmax,hfetch⟩
    exact ⟨hne,hmax,fun hlong => hfetch hlong event t rfl⟩
  · rintro ⟨hne,hmax,hfetch⟩
    refine ⟨hne,hmax,fun hlong event' t' hsame => ?_⟩
    cases hsame
    exact hfetch hlong

/-- What is fetched is the value exactly if it fits and the attribute begins with it. -/
theorem fetched_iff {value kept : List UInt8} {preview : ℕ}
    (hlong : min preview value.length<value.length%65536) :
    (value≠[] ∧ kept.take (min (value.length%65536) clpBleGattsValueMaxBytes)=value) ↔
      value≠[] ∧ value.length≤ clpBleGattsValueMaxBytes ∧
        (preview<value.length → value <+: kept) := by
  have hmax : clpBleGattsValueMaxBytes=512 := rfl
  have hmod := Nat.mod_le value.length 65536
  refine and_congr_right fun _ => ?_
  constructor
  · intro htake
    have hlength := List.length_take_le (min (value.length%65536) clpBleGattsValueMaxBytes)
      kept
    rw [htake] at hlength
    refine ⟨by omega,fun _ => ?_⟩
    rw [← htake]
    exact List.take_prefix _ _
  · rintro ⟨hfits,hgrows⟩
    have hwhole : min (value.length%65536) clpBleGattsValueMaxBytes=value.length := by omega
    rw [hwhole]
    exact (List.prefix_iff_eq_take.mp (hgrows (by omega))).symm

/-- What is in the preview is the value exactly if this is short. -/
theorem previewed_iff {value kept : List UInt8} {preview : ℕ} (hshort : preview≤27)
    (hfits : ¬min preview value.length<value.length%65536) :
    (value≠[] ∧ (value.take preview).take (value.length%65536)=value) ↔
      value≠[] ∧ value.length≤ clpBleGattsValueMaxBytes ∧
        (preview<value.length → value <+: kept) := by
  have hmax : clpBleGattsValueMaxBytes=512 := rfl
  have hmod := Nat.mod_le value.length 65536
  refine and_congr_right fun _ => ?_
  rw [List.take_take]
  constructor
  · intro htake
    have hlength := List.length_take_le (min (value.length%65536) preview) value
    rw [htake] at hlength
    exact ⟨by omega,fun hlong => absurd hlong (by omega)⟩
  · rintro ⟨hsmall,-⟩
    exact List.take_of_length_le (by omega)

/-- A call of receive that finds a write. -/
theorem recv_delivers (hm : m.Serves ble.transport peer rx) (hready : m.ready s.device)
    (hscratch : 43≤ ble.scratchSize) (hpeer : peer≠0) {capacity : UInt32}
    (hcapacity : capacity≠0) (link : BleLink) {value : List UInt8}
    (hwaiting : m.waiting s.device=some (.wrote value)) :
    ∃ result t,clBleLinkIoRecv ble link peer.toNat capacity s=(result,t) ∧
      Delivery m ble capacity s t value result := by
  have hevent : wp (clBleEventNext ble clpBleScanDataMaxBytes)
      (fun result t => ∃ event,result=.ok event ∧ CarriedOut m s t ∧
        m.taken t.device=m.taken s.device+1 ∧ event.type=clpBleEventGattsWrite ∧
        event.attrHandle=rx ∧ event.data=le16 peer++le16 (UInt16.ofNat value.length)++
          value.take m.preview) (fun _ => False) s := by
    refine wp_clBleEventNext hm hready hscratch ?_ ?_ ?_
    · intro hnone
      rw [hwaiting] at hnone
      cases hnone
    · intro payload h hother
      rw [hwaiting] at hother
      cases hother
    · intro value' hwrote event t hcarried htaken htype hattr hdata
      rw [hwaiting] at hwrote
      cases hwrote
      exact ⟨event,rfl,hcarried,htaken,htype,hattr,hdata⟩
  obtain ⟨_,t,hrun,event,rfl,⟨hready',hhistory⟩,htaken,htype,hattr,hdata⟩ := wp_total hevent
  obtain ⟨take,htake,hreceive⟩ := receiveEvent_wrote ble link capacity htype hdata
  have hstart : clBleLinkIoRecv ble link peer.toNat capacity s=
      receiveEvent ble link peer.toNat capacity event t := by
    rw [recv_eq link hpeer hcapacity]
    unfold andThen
    rw [bind_run hrun]
  have hpreview : m.preview≤27 := by
    have hshort : m.preview+4≤31 := hm.short
    omega
  have hmod := Nat.mod_le value.length 65536
  rw [List.length_take] at hreceive
  by_cases hlong : min m.preview value.length<take.toNat
  · rw [if_pos hlong,hattr] at hreceive
    obtain ⟨result,u,hget,⟨hready'',hhistory'⟩,htaken',hresult⟩ := wp_total
      (wp_clBleGattsGetValue (D := fun _ => False) hm hready' hscratch take
        (Q := fun result u => CarriedOut m t u ∧ m.taken u.device=m.taken t.device ∧
          result=.ok ((m.stored t.device).take (min take.toNat clpBleGattsValueMaxBytes)))
        fun u hu hsame => ⟨hu,hsame,rfl⟩)
    subst hresult
    refine ⟨_,u,by rw [hstart,hreceive,hget],hready'',?_,by omega,fun hfits => ?_⟩
    · rw [hhistory',← hhistory]
      exact List.prefix_append _ _
    · have hwhole : take.toNat=value.length%65536 := by omega
      rw [received_ok_iff,deliverable_iff hrun,hwhole]
      exact fetched_iff (by omega)
  · rw [if_neg hlong] at hreceive
    refine ⟨_,t,by rw [hstart,hreceive]; rfl,hready',?_,htaken,fun hfits => ?_⟩
    · exact hhistory.symm ▸ List.prefix_refl _
    · have hwhole : take.toNat=value.length%65536 := by omega
      rw [received_ok_iff,deliverable_iff hrun,hwhole]
      exact previewed_iff hpreview (by omega)

end Receiving

section Sessions

/-- A session of the host: its link, what was delivered, and how many arrivals were
waiting for a call. -/
structure Session (δ : Type) where
  /-- The client with its device. -/
  link : Link δ
  /-- Values delivered, in order. -/
  delivered : List (List UInt8)
  /-- Calls that found an arrival. -/
  found : ℕ

/-- What happens next. -/
inductive SessionStep where
  /-- Something arrives. -/
  | arrive (arrival : Arrival)
  /-- Receive is called. -/
  | recv

variable (m : LinkServer δ) (ble : Peer δ) (link : BleLink) (peer : UInt16) (capacity : UInt32)

/-- Carry out a step. -/
def advance (σ : Session δ) : SessionStep → Session δ
  | .arrive arrival => {σ with link := {σ.link with device := m.arrive arrival σ.link.device}}
  | .recv =>
    let call := clBleLinkIoRecv ble link peer.toNat capacity σ.link
    ⟨call.2,σ.delivered++received call.1,
      σ.found+(m.waiting σ.link.device).toList.length⟩

/-- Carry out steps. -/
def runSession : List SessionStep → Session δ → Session δ
  | [],σ => σ
  | step::steps,σ => runSession steps (advance m ble link peer capacity σ step)

/-- Every write that a call has found was delivered, once, complete and in order. -/
def Complete (σ : Session δ) : Prop :=
  σ.delivered=writesOf ((m.history σ.link.device).take σ.found)

/-- Every call that finds a write can deliver it. -/
def AllDeliverable : List SessionStep → Session δ → Prop
  | [],_ => True
  | .arrive arrival::steps,σ =>
    AllDeliverable steps (advance m ble link peer capacity σ (.arrive arrival))
  | .recv::steps,σ =>
    (∀ value,m.waiting σ.link.device=some (.wrote value) → Deliverable m ble σ.link value) ∧
      AllDeliverable steps (advance m ble link peer capacity σ .recv)

/-- What holds throughout a session. -/
structure Sound (σ : Session δ) : Prop where
  /-- The device is ready. -/
  ready : m.ready σ.link.device
  /-- Its events were taken by the calls that found them. -/
  taken : m.taken σ.link.device=σ.found
  /-- They are of arrivals. -/
  found : σ.found≤(m.history σ.link.device).length
  /-- No call delivers more than it has found. -/
  delivered : σ.delivered.length≤(writesOf ((m.history σ.link.device).take σ.found)).length

variable {m ble link peer capacity} {rx : UInt16} {σ : Session δ}

/-- Two lists that grow, one of them never ahead of the other. -/
theorem append_eq_append_iff {α : Type} {as bs xs ys : List α} (h : as.length≤bs.length)
    (hmore : xs.length≤ys.length) : as++xs=bs++ys ↔ as=bs ∧ xs=ys := by
  constructor
  · intro hsame
    have hlength := congrArg List.length hsame
    rw [List.length_append,List.length_append] at hlength
    exact List.append_inj hsame (by omega)
  · rintro ⟨rfl,rfl⟩
    rfl

/-- What was taken stays what it was. -/
theorem take_grown {α : Type} {as bs : List α} {n : ℕ} (h : as <+: bs) (hn : n≤as.length) :
    bs.take n=as.take n := by
  obtain ⟨rest,rfl⟩ := h
  exact List.take_append_of_le_length hn

/-- An arrival changes nothing about what was delivered. -/
theorem arrive_step (link : BleLink) (capacity : UInt32) (hm : m.Serves ble.transport peer rx)
    (h : Sound m σ) (arrival : Arrival) :
    Sound m (advance m ble link peer capacity σ (.arrive arrival)) ∧
      m.history σ.link.device <+:
        m.history (advance m ble link peer capacity σ (.arrive arrival)).link.device ∧
      (Complete m (advance m ble link peer capacity σ (.arrive arrival)) ↔ Complete m σ) := by
  obtain ⟨hready,hhistory,htaken⟩ := hm.arrives σ.link.device h.ready arrival
  have hgrows : m.history σ.link.device <+:
      m.history (advance m ble link peer capacity σ (.arrive arrival)).link.device := by
    change _ <+: m.history (m.arrive arrival σ.link.device)
    rw [hhistory]
    exact List.prefix_append _ _
  have htake := take_grown hgrows h.found
  refine ⟨⟨hready,htaken.trans h.taken,Nat.le_trans h.found hgrows.length_le,?_⟩,hgrows,?_⟩
  · change σ.delivered.length≤(writesOf (List.take σ.found _)).length
    rw [htake]
    exact h.delivered
  · change σ.delivered=writesOf (List.take σ.found _) ↔ _
    rw [htake]
    rfl

/-- The arrivals that were found before a call, and the one that the call finds. -/
theorem take_found (h : Sound m σ) {t : Link δ}
    (hgrows : m.upcoming σ.link.device <+: m.history t.device) :
    (m.history t.device).take (σ.found+(m.waiting σ.link.device).toList.length)=
      (m.history σ.link.device).take σ.found++(m.waiting σ.link.device).toList ∧
    σ.found+(m.waiting σ.link.device).toList.length≤(m.history t.device).length := by
  have hfirst : m.history σ.link.device <+: m.upcoming σ.link.device := List.prefix_append _ _
  have hall := hfirst.trans hgrows
  have hlength := hall.length_le
  have hfound := h.found
  unfold LinkServer.waiting
  rw [h.taken]
  cases hget : (m.upcoming σ.link.device)[σ.found]? with
  | none =>
    change List.take σ.found _=_++[] ∧ σ.found≤_
    rw [List.append_nil,take_grown hall hfound]
    exact ⟨rfl,by omega⟩
  | some arrival =>
    obtain ⟨hlt,hhere⟩ := List.getElem?_eq_some_iff.mp hget
    have hmore := hgrows.length_le
    change List.take (σ.found+1) _=_++[arrival] ∧ σ.found+1≤_
    rw [take_grown hgrows hlt,List.take_add_one,hget,take_grown hfirst hfound]
    exact ⟨rfl,by omega⟩

/-- A call, whatever is waiting: it takes it, and delivers it if it can. -/
theorem recv_call (link : BleLink) (hm : m.Serves ble.transport peer rx)
    (hready : m.ready σ.link.device) (hscratch : 43≤ ble.scratchSize) (hpeer : peer≠0)
    (hcapacity : capacity≠0) :
    ∃ result t,clBleLinkIoRecv ble link peer.toNat capacity σ.link=(result,t) ∧
      m.ready t.device ∧ m.upcoming σ.link.device <+: m.history t.device ∧
      m.taken t.device=m.taken σ.link.device+(m.waiting σ.link.device).toList.length ∧
      (received result).length≤(writesOf (m.waiting σ.link.device).toList).length ∧
      ((∀ value,m.waiting σ.link.device=some (.wrote value) → value.length≤ capacity.toNat) →
        (received result=writesOf (m.waiting σ.link.device).toList ↔
          ∀ value,m.waiting σ.link.device=some (.wrote value) →
            Deliverable m ble σ.link value)) := by
  by_cases hwrite : ∃ value,m.waiting σ.link.device=some (.wrote value)
  · obtain ⟨value,hvalue⟩ := hwrite
    obtain ⟨result,t,hrun,hdelivery⟩ :=
      recv_delivers hm hready hscratch hpeer hcapacity link hvalue
    refine ⟨result,t,hrun,hdelivery.ready,hdelivery.history,?_⟩
    rw [hvalue]
    refine ⟨hdelivery.taken,length_received result,fun hfits => ?_⟩
    change received result=[value] ↔ _
    rw [hdelivery.received (hfits value rfl)]
    constructor
    · intro h value' hsame
      cases hsame
      exact h
    · exact fun h => h value rfl
  · have hnone : ∀ value,m.waiting σ.link.device≠some (.wrote value) :=
      fun value hvalue => hwrite ⟨value,hvalue⟩
    obtain ⟨result,t,hrun,hpassed⟩ :=
      recv_passes hm hready hscratch hpeer hcapacity link hnone
    have hempty : writesOf (m.waiting σ.link.device).toList=[] := by
      cases hwaiting : m.waiting σ.link.device with
      | none => rfl
      | some arrival =>
        cases arrival with
        | wrote value => exact absurd hwaiting (hnone value)
        | other payload h => rfl
    refine ⟨result,t,hrun,hpassed.carriedOut.1,?_,hpassed.taken,?_,fun _ => ?_⟩
    · exact hpassed.carriedOut.2.symm ▸ List.prefix_refl _
    · rw [hpassed.received]
      exact Nat.zero_le _
    · rw [hpassed.received,hempty]
      exact iff_of_true rfl fun value hvalue => absurd hvalue (hnone value)

/-- A call keeps the session complete exactly if it can deliver the write it finds. -/
theorem recv_step (link : BleLink) (hm : m.Serves ble.transport peer rx)
    (hscratch : 43≤ ble.scratchSize) (hpeer : peer≠0) (hcapacity : capacity≠0) (h : Sound m σ) :
    Sound m (advance m ble link peer capacity σ .recv) ∧
      m.upcoming σ.link.device <+:
        m.history (advance m ble link peer capacity σ .recv).link.device ∧
      ((∀ value,m.waiting σ.link.device=some (.wrote value) → value.length≤ capacity.toNat) →
        (Complete m (advance m ble link peer capacity σ .recv) ↔ Complete m σ ∧
          ∀ value,m.waiting σ.link.device=some (.wrote value) →
            Deliverable m ble σ.link value)) := by
  obtain ⟨result,t,hrun,hready,hgrows,htaken,hlength,hdelivered⟩ :=
    recv_call link hm h.ready hscratch hpeer hcapacity
  have hnext : advance m ble link peer capacity σ .recv=
      ⟨t,σ.delivered++received result,
        σ.found+(m.waiting σ.link.device).toList.length⟩ := by
    unfold advance
    rw [hrun]
  obtain ⟨htake,hfound⟩ := take_found h hgrows
  rw [hnext]
  have hwrites : writesOf ((m.history t.device).take
      (σ.found+(m.waiting σ.link.device).toList.length))=
      writesOf ((m.history σ.link.device).take σ.found)++
        writesOf (m.waiting σ.link.device).toList := by
    rw [htake]
    exact List.filterMap_append
  refine ⟨⟨hready,by rw [htaken,h.taken],hfound,?_⟩,hgrows,fun hfits => ?_⟩
  · dsimp only
    rw [hwrites,List.length_append,List.length_append]
    exact Nat.add_le_add h.delivered hlength
  · unfold Complete
    dsimp only
    rw [hwrites,append_eq_append_iff h.delivered hlength,hdelivered hfits]

/-- Throughout a session arrivals stay in the history. -/
theorem history_runSession (link : BleLink) (hm : m.Serves ble.transport peer rx)
    (hscratch : 43≤ ble.scratchSize) (hpeer : peer≠0) (hcapacity : capacity≠0)
    (steps : List SessionStep) (h : Sound m σ) :
    m.history σ.link.device <+:
      m.history (runSession m ble link peer capacity steps σ).link.device := by
  induction steps generalizing σ with
  | nil => exact List.prefix_refl _
  | cons step steps ih =>
    cases step with
    | arrive arrival =>
      obtain ⟨hnext,hgrows,-⟩ := arrive_step link capacity hm h arrival
      exact hgrows.trans (ih hnext)
    | recv =>
      obtain ⟨hnext,hgrows,-⟩ := recv_step link hm hscratch hpeer hcapacity h
      exact ((List.prefix_append _ _).trans hgrows).trans (ih hnext)

/-- A session stays complete exactly if its calls can deliver what they find. -/
theorem complete_runSession (hm : m.Serves ble.transport peer rx)
    (hscratch : 43≤ ble.scratchSize) (hpeer : peer≠0) (hcapacity : capacity≠0)
    (steps : List SessionStep) (h : Sound m σ)
    (hfits : ∀ value∈writesOf (m.history (runSession m ble link peer capacity steps
      σ).link.device),value.length≤ capacity.toNat) :
    Complete m (runSession m ble link peer capacity steps σ) ↔
      Complete m σ ∧ AllDeliverable m ble link peer capacity steps σ := by
  induction steps generalizing σ with
  | nil => exact (and_iff_left trivial).symm
  | cons step steps ih =>
    cases step with
    | arrive arrival =>
      obtain ⟨hnext,-,hsame⟩ := arrive_step link capacity hm h arrival
      rw [← hsame]
      exact ih hnext hfits
    | recv =>
      obtain ⟨hnext,hgrows,hstep⟩ := recv_step link hm hscratch hpeer hcapacity h
      have hroom : ∀ value,m.waiting σ.link.device=some (.wrote value) →
          value.length≤ capacity.toNat := by
        intro value hvalue
        have hmem : Arrival.wrote value∈m.upcoming σ.link.device :=
          List.mem_of_getElem? hvalue
        have hall := hgrows.trans
          (history_runSession link hm hscratch hpeer hcapacity steps hnext)
        exact hfits value (List.mem_filterMap.mpr ⟨_,hall.subset hmem,rfl⟩)
      have hrest := ih hnext hfits
      rw [hstep hroom,and_assoc] at hrest
      exact hrest

/-- Receiving loses, repeats or cuts no write exactly if every call that finds a write
can deliver it. -/
theorem recv_complete_iff (hm : m.Serves ble.transport peer rx)
    (hscratch : 43≤ ble.scratchSize) (hpeer : peer≠0) (hcapacity : capacity≠0)
    {s : Link δ} (hready : m.ready s.device) (htaken : m.taken s.device=0)
    (steps : List SessionStep)
    (hfits : ∀ value∈writesOf (m.history (runSession m ble link peer capacity steps
      ⟨s,[],0⟩).link.device),value.length≤ capacity.toNat) :
    Complete m (runSession m ble link peer capacity steps ⟨s,[],0⟩) ↔
      AllDeliverable m ble link peer capacity steps ⟨s,[],0⟩ := by
  have hstart : Sound m ⟨s,[],0⟩ := ⟨hready,htaken,Nat.zero_le _,Nat.zero_le _⟩
  rw [complete_runSession hm hscratch hpeer hcapacity steps hstart hfits]
  exact and_iff_right rfl

end Sessions

section Sample

/-- The records of a server. -/
structure Records where
  /-- All arrivals. -/
  history : List Arrival
  /-- Events taken. -/
  taken : ℕ

/-- The payload of the event of an arrival, with twenty bytes of preview. -/
def eventPayload (peer rx : UInt16) : Arrival → List UInt8
  | .wrote value =>
    [clpBleEventGattsWrite,0,0,UInt8.ofNat (4+(value.take 20).length)]++le16 rx++
      [0,0,0,0,0,0]++(le16 peer++le16 (UInt16.ofNat value.length)++value.take 20)
  | .other payload _ => payload

/-- Serve the game link. -/
def serveLink (peer rx : UInt16) (header : ClpHeader) (payload : List UInt8)
    (records : Records) : Reply×Records :=
  if header.opcode=clpBleEventNext then
    match records.history[records.taken]? with
    | none => (.ack clpStatusNotFound,records)
    | some arrival =>
      (.response clpStatusOk 0 0 (eventPayload peer rx arrival),
        {records with taken := records.taken+1})
  else if header.opcode=clpBleGattsGetValue then
    (.response clpStatusOk 0 0 (((writesOf records.history).getLastD []).take
      (wordAt payload 4).toNat),records)
  else (.ack clpStatusOk,records)

/-- What is known of it. -/
def linkServer : LinkServer (Responder Records) where
  ready d := d.received=[] ∧ d.pending=[]
  history d := d.store.history
  taken d := d.store.taken
  arriving _ := []
  arrive arrival d := {d with store := {d.store with history := d.store.history++[arrival]}}
  preview := 20

theorem length_eventPayload (peer rx : UInt16) (arrival : Arrival) :
    (eventPayload peer rx arrival).length≤43 := by
  cases arrival with
  | wrote value =>
    have hlength : (eventPayload peer rx (.wrote value)).length=
        12+(4+(value.take 20).length) := by
      unfold eventPayload
      simp only [List.length_append]
      rfl
    rw [hlength,List.length_take]
    omega
  | other payload h => exact h.1

theorem linkServer_upcoming (d : Responder Records) :
    linkServer.upcoming d=d.store.history := List.append_nil _

/-- It serves the link. -/
theorem linkServer_serves (peer rx : UInt16) :
    linkServer.Serves (respond (serveLink peer rx)) peer rx := by
  have hmax : clpFrameMaxPayloadBytes=32768 := rfl
  refine ⟨by decide,?_,?_,?_⟩
  · rintro ⟨_,_,records⟩ ⟨rfl,rfl⟩ arrival
    exact ⟨⟨rfl,rfl⟩,rfl,rfl⟩
  · rintro ⟨_,_,records⟩ ⟨rfl,rfl⟩
    refine respond_answers (serveLink peer rx) (by decide) fun seq => ?_
    have hserved : serveLink peer rx (commandHeader clpChBle clpBleEventNext
        (UInt32.ofNat (le32 (UInt32.ofNat clpBleScanDataMaxBytes)).length) seq)
        (le32 (UInt32.ofNat clpBleScanDataMaxBytes)) records=
        match records.history[records.taken]? with
        | none => (.ack clpStatusNotFound,records)
        | some arrival => (.response clpStatusOk 0 0 (eventPayload peer rx arrival),
            {records with taken := records.taken+1}) := rfl
    have hwaiting : linkServer.waiting ⟨[],[],records⟩=records.history[records.taken]? := by
      unfold LinkServer.waiting
      rw [linkServer_upcoming]
      rfl
    rw [hserved,linkServer_upcoming,hwaiting]
    cases hget : records.history[records.taken]? with
    | none =>
      have hrefused : clpStatusNotFound≠clpStatusOk := by decide
      exact ⟨Nat.zero_le _,⟨rfl,rfl⟩,rfl,Or.inl hrefused,rfl⟩
    | some arrival =>
      have hlength := length_eventPayload peer rx arrival
      refine ⟨?_,⟨rfl,rfl⟩,rfl,⟨rfl,?_⟩,rfl⟩
      · change (eventPayload peer rx arrival).length≤ clpFrameMaxPayloadBytes
        omega
      · cases arrival with
        | wrote value => exact ⟨0,0,[0,0,0,0,0,0],rfl,rfl⟩
        | other payload h => rfl
  · rintro ⟨_,_,records⟩ ⟨rfl,rfl⟩ capacity hcapacity
    have hbytes : clpBleGattsValueMaxBytes=512 := rfl
    refine respond_answers (serveLink peer rx) (by rw [hmax]; exact Nat.le_of_ble_eq_true rfl)
      fun seq => ?_
    have hword : wordAt (le16 rx++le16 0++le32 capacity) 4=capacity :=
      loadLe32_storeLe32 capacity
    have hstored : linkServer.stored ⟨[],[],records⟩=
        (writesOf records.history).getLastD [] := by
      unfold LinkServer.stored
      rw [linkServer_upcoming]
    have hserved : serveLink peer rx (commandHeader clpChBle clpBleGattsGetValue
        (UInt32.ofNat (le16 rx++le16 0++le32 capacity).length) seq)
        (le16 rx++le16 0++le32 capacity) records=
        (.response clpStatusOk 0 0 (((writesOf records.history).getLastD []).take
          (wordAt (le16 rx++le16 0++le32 capacity) 4).toNat),records) := rfl
    rw [hserved,hword,hstored]
    refine ⟨?_,⟨rfl,rfl⟩,(List.append_nil _).symm,rfl,rfl,rfl⟩
    have hlength := List.length_take_le capacity.toNat ((writesOf records.history).getLastD [])
    change (List.take capacity.toNat _).length≤ clpFrameMaxPayloadBytes
    omega

/-- A client of it. -/
def linkPeer : Peer (Responder Records) := ⟨respond (serveLink 3 9),64,fun _ => 0⟩

/-- The client before the first arrival. -/
def linkStart : Link (Responder Records) := ⟨⟨[],[],⟨[],0⟩⟩,⟨.idle,0,clpStatusOk,0⟩,[]⟩

/-- The link of a host. -/
def hostSide : BleLink := ⟨.host,0,0,7⟩

/-- A session of the host with a buffer of sixty-four bytes. -/
def sampleSession (steps : List SessionStep) : Session (Responder Records) :=
  runSession linkServer linkPeer hostSide 3 64 steps ⟨linkStart,[],0⟩

/-- A short write, received. -/
def shortWrite : List SessionStep := [.arrive (.wrote [1,2,3]),.recv]

theorem recv_complete_iff_shortWrite :
    Complete linkServer (sampleSession shortWrite) ↔
      AllDeliverable linkServer linkPeer hostSide 3 64 shortWrite ⟨linkStart,[],0⟩ :=
  recv_complete_iff (m := linkServer) (linkServer_serves 3 9) (by decide) (by decide) (by decide)
    (s := linkStart) ⟨rfl,rfl⟩ rfl shortWrite (by decide +kernel)

/-- Two long writes before the first is received. -/
def longWrites : List SessionStep :=
  [.arrive (.wrote (List.replicate 30 1)),.arrive (.wrote (List.replicate 30 2)),.recv,.recv]

/-- The second write replaces the first, and is delivered twice. -/
theorem recv_complete_fails :
    ¬∀ (m : LinkServer (Responder Records)) (ble : Peer (Responder Records)) (link : BleLink)
      (peer rx : UInt16) (capacity : UInt32) (s : Link (Responder Records))
      (steps : List SessionStep),m.Serves ble.transport peer rx → 43≤ ble.scratchSize → peer≠0 →
      capacity≠0 → m.ready s.device → m.taken s.device=0 →
      (∀ value∈writesOf (m.history (runSession m ble link peer capacity steps
        ⟨s,[],0⟩).link.device),value.length≤ capacity.toNat) →
      Complete m (runSession m ble link peer capacity steps ⟨s,[],0⟩) := by
  intro h
  have hcomplete : Complete linkServer (sampleSession longWrites) :=
    h linkServer linkPeer hostSide 3 9 64 linkStart longWrites (linkServer_serves 3 9)
      (by decide) (by decide) (by decide) ⟨rfl,rfl⟩ rfl (by decide +kernel)
  unfold Complete at hcomplete
  revert hcomplete
  decide +kernel

end Sample

end ChisLink.BleLinkIo
