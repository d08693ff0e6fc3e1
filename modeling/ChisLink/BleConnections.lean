import ChisLink.BleClient
import ChisLink.StreamServer

/-!
# The connections that a record of Bluetooth traffic leaves open

A connection is open once a `CONNECT` command was answered with its handle, until a
`DISCONNECT` command with this handle is sent. The record of a call says which ones
it leaves open. Most operations do not change them, whatever the device answers.
-/

namespace ChisLink.BleConnections

open DriverPrograms WireProtocol StorageClient StorageBoundary WireCommands ClientExchange
  BleClient
open StreamServer (payloadWords_stored)

/-- Words sent up to the next mark of a record. -/
def sentOf : List LinkEvent → List UInt32
  | .word sent _::events => sent::sentOf events
  | _ => []

/-- The handle of a request that follows in a record, behind the header. -/
def requestedHandle (events : List LinkEvent) : UInt16 := ((sentOf events).getD 4 0).toUInt16

/-- The handle of an answer whose payload follows in a record. -/
def grantedHandle (events : List LinkEvent) : UInt16 := ((payloadOf events).headD 0).toUInt16

/-- Whether a command closes a connection. -/
def Closing (header : ClpHeader) : Prop :=
  header.channel=clpChBle ∧ header.opcode=clpBleDisconnect

/-- Whether an answer opens a connection, with a handle behind it. -/
def Opening (response : ClpHeader) : Prop :=
  response.channel=clpChBle ∧ response.opcode=clpBleConnect ∧ responseOk response 4=true

instance (header : ClpHeader) : Decidable (Closing header) :=
  inferInstanceAs (Decidable (_ ∧ _))

instance (response : ClpHeader) : Decidable (Opening response) :=
  inferInstanceAs (Decidable (_ ∧ _ ∧ _))

/-- Connections that are open behind a record, if these are before it. -/
def connectionsFrom (known : List UInt16) : List LinkEvent → List UInt16
  | [] => known
  | .word _ _::events => connectionsFrom known events
  | .command header::events =>
    connectionsFrom (if Closing header then known.erase (requestedHandle events) else known)
      events
  | .accepted response::events =>
    connectionsFrom
      (if Opening response ∧ grantedHandle events≠0 then grantedHandle events::known
      else known) events

/-- Connections that a call with this record has opened and not closed. -/
def connections (events : List LinkEvent) : List UInt16 := connectionsFrom [] events

@[simp] theorem connectionsFrom_wordEvents (known : List UInt16) (pairs : List (UInt32×UInt32))
    (rest : List LinkEvent) :
    connectionsFrom known (wordEvents pairs++rest)=connectionsFrom known rest := by
  induction pairs with
  | nil => rfl
  | cons pair pairs ih => exact ih

theorem sentOf_wordEvents (pairs : List (UInt32×UInt32)) (rest : List LinkEvent) :
    sentOf (wordEvents pairs++rest)=pairs.map Prod.fst++sentOf rest := by
  induction pairs with
  | nil => rfl
  | cons pair pairs ih =>
    change pair.1::sentOf (wordEvents pairs++rest)=_
    rw [ih]
    rfl

/-- The effect of some events on the connections that are open. -/
def Changes (f : List UInt16 → List UInt16) (events : List LinkEvent) : Prop :=
  ∀ known rest,connectionsFrom known (events++rest)=connectionsFrom (f known) rest

theorem Changes.comp {f g : List UInt16 → List UInt16} {first second : List LinkEvent}
    (hfirst : Changes f first) (hsecond : Changes g second) :
    Changes (g ∘ f) (first++second) := by
  intro known rest
  rw [List.append_assoc,hfirst,hsecond]
  rfl

theorem Changes.connections {f : List UInt16 → List UInt16} {events : List LinkEvent}
    (h : Changes f events) : connections events=f [] := by
  have hall := h [] []
  rw [List.append_nil] at hall
  exact hall

theorem changes_nil : Changes id [] := fun _ _ => rfl

theorem changes_words (pairs : List (UInt32×UInt32)) : Changes id (wordEvents pairs) :=
  fun known rest => connectionsFrom_wordEvents known pairs rest

variable {δ α β : Type} {peer : Peer δ}

/-- The program returns and leaves the connections as they are. -/
def Quiet (p : Prog (Link δ) α) : Prop := Emits Link.log p fun _ events => Changes id events

section Sequences

theorem quiet_pure (a : α) : Quiet (δ := δ) (pure a) := emits_pure changes_nil

theorem quiet_refuse (code : ℤ) : Quiet (refuse code : Prog (Link δ) (Except ℤ α)) :=
  quiet_pure _

theorem Quiet.bind {p : Prog (Link δ) β} {f : β → Prog (Link δ) α} (hp : Quiet p)
    (hf : ∀ b,Quiet (f b)) : Quiet (p >>= f) := by
  refine Emits.bind hp ?_
  intro b first hfirst
  exact (hf b).mono fun _ _ hrest => hfirst.comp hrest

theorem Quiet.andThen {p : Prog (Link δ) (Except ℤ α)} {f : α → Prog (Link δ) (Except ℤ β)}
    (hp : Quiet p) (hf : ∀ a,Quiet (f a)) : Quiet (andThen p f) := by
  refine hp.bind fun result => ?_
  cases result with
  | error code => exact quiet_pure _
  | ok a => exact hf a

theorem Quiet.withScratch {required : ℕ} {run : Prog (Link δ) (Except ℤ α)}
    (h : Quiet run) : Quiet (withScratch peer required run) := by
  unfold ClientExchange.withScratch
  split
  · exact quiet_refuse _
  · exact h

theorem Quiet.ite {c : Prop} [Decidable c] {p q : Prog (Link δ) α} (hp : Quiet p)
    (hq : Quiet q) : Quiet (if c then p else q) := by
  split
  · exact hp
  · exact hq

end Sequences

section Exchanges

variable {channel opcode : UInt8} {chunks : List (List UInt8)}

/-- An accepted answer is one of the channel and the opcode that was asked. -/
def Matches (channel opcode : UInt8) (answer : Except ℤ ClpHeader) : Prop :=
  ∀ response,answer=.ok response → response.channel=channel ∧ response.opcode=opcode

theorem matches_error (code : ℤ) : Matches channel opcode (.error code) :=
  fun _ h => by cases h

theorem emits_matches_rejected (code : ℤ) :
    Emits (Link.log (δ := δ)) (do badPacket; pure (.error code))
      (fun answer _ => Matches channel opcode answer) :=
  emits_badPacket.bind fun _ _ _ => emits_pure (matches_error code)

theorem emits_matches_accepted {response : ClpHeader} (hchannel : response.channel=channel)
    (hopcode : response.opcode=opcode) :
    Emits (Link.log (δ := δ)) (do acceptResponse response; pure (.ok response))
      (fun answer _ => Matches channel opcode answer) := by
  refine (emits_acceptResponse response).bind fun _ _ _ => emits_pure ?_
  intro accepted h
  cases h
  exact ⟨hchannel,hopcode⟩

theorem emits_matches_readResponse (transport : Transport δ) (seq : UInt16) (attempts : ℕ) :
    Emits Link.log (readResponseFrom transport channel opcode seq attempts)
      (fun answer _ => Matches channel opcode answer) := by
  induction attempts with
  | zero => exact emits_matches_rejected (-2)
  | succ attempts ih =>
    refine (emits_xfer transport nopWord).bind fun first _ _ => ?_
    split
    · exact ih
    · split
      · split
        next => exact emits_matches_rejected (-2)
        next hsame =>
          obtain ⟨hchannel,hopcode⟩ := not_or.mp hsame
          exact emits_matches_accepted (not_not.mp hchannel) (not_not.mp hopcode)
      · split
        next => exact emits_matches_rejected (-2)
        next =>
          refine (emits_xfer transport nopWord).bind fun w1 _ _ => ?_
          refine (emits_xfer transport nopWord).bind fun w2 _ _ => ?_
          refine (emits_xfer transport nopWord).bind fun w3 _ _ => ?_
          split
          next decoded _ =>
            split
            next hanswers =>
              unfold answers at hanswers
              simp only [Bool.and_eq_true,decide_eq_true_eq] at hanswers
              exact emits_matches_accepted hanswers.1.1.2 hanswers.1.2
            next => exact emits_matches_rejected (-2)
          next => exact emits_matches_rejected (-2)

/-- Events of a command with this header and payload and of the wait for its answer. -/
def Asked (channel opcode : UInt8) (chunks : List (List UInt8)) (answer : Except ℤ ClpHeader)
    (events : List LinkEvent) : Prop :=
  ∃ header sent waited,header.channel=channel ∧ header.opcode=opcode ∧
    sent.map Prod.fst=clpEncodeHeaderWords header++payloadWords chunks.flatten ∧
    Matches channel opcode answer ∧ Awaited answer waited ∧
    events=.command header::(wordEvents sent++waited)

/-- A command is sent and waited for, or its payload is too long for a frame. -/
theorem emits_commandAnswer (transport : Transport δ) :
    Emits Link.log (commandAnswer transport channel opcode chunks)
      (fun answer events => (answer=.error (-1) ∧ events=[] ∧ wirePayloadLength chunks=none) ∨
        Asked channel opcode chunks answer events) := by
  unfold commandAnswer
  cases hlength : wirePayloadLength chunks with
  | none => exact emits_pure (Or.inl ⟨rfl,rfl,rfl⟩)
  | some length =>
    refine emits_clClientNextSeq.bind ?_
    rintro seq _ rfl
    refine (emits_mark _).bind ?_
    rintro _ _ rfl
    refine (emits_sendWords_sent transport _).bind ?_
    rintro _ _ ⟨first,rfl,hfirst⟩
    refine (emits_sendWords_sent transport _).bind ?_
    rintro _ _ ⟨second,rfl,hsecond⟩
    refine ((emits_readResponseFrom transport channel opcode seq 9).and
      (emits_matches_readResponse transport seq 9)).mono ?_
    rintro answer waited ⟨hwaited,hmatches⟩
    refine Or.inr ⟨commandHeader channel opcode (UInt32.ofNat length) seq,first++second,waited,
      rfl,rfl,?_,hmatches,hwaited,?_⟩
    · rw [List.map_append,hfirst,hsecond]
    · simp

/-- A command that closes nothing changes nothing. -/
theorem changes_command {header : ClpHeader} (h : ¬Closing header)
    (sent : List (UInt32×UInt32)) : Changes id (.command header::wordEvents sent) := by
  intro known rest
  rw [List.cons_append,connectionsFrom,if_neg h,connectionsFrom_wordEvents]
  rfl

/-- An answer that opens nothing changes nothing. -/
theorem changes_awaited {answer : Except ℤ ClpHeader} {events : List LinkEvent}
    (hwaited : Awaited answer events) (h : ∀ response,answer=.ok response → ¬Opening response) :
    Changes id events := by
  obtain ⟨pairs,rfl⟩ := hwaited
  cases answer with
  | error code => exact changes_words pairs
  | ok response =>
    refine (changes_words pairs).comp (f := id) (g := id) ?_
    intro known rest
    rw [List.singleton_append,connectionsFrom,if_neg fun hopen => h response rfl hopen.1]
    rfl

/-- A command other than the two that are about connections leaves them as they are. -/
theorem quiet_exchange {finish : ClpHeader → Prog (Link δ) (Except ℤ α)}
    (hconnect : opcode≠clpBleConnect) (hdisconnect : opcode≠clpBleDisconnect)
    (hfinish : ∀ response,Emits Link.log (finish response)
      fun _ events => ∃ pairs,events=wordEvents pairs) :
    Quiet (exchange peer channel opcode chunks finish) := by
  unfold exchange ClientExchange.andThen
  refine (emits_commandAnswer peer.transport).bind ?_
  have hasked : ∀ {answer : Except ℤ ClpHeader} {events : List LinkEvent},
      Asked channel opcode chunks answer events → Changes id events := by
    rintro answer _ ⟨header,sent,waited,hchannel,hopcode,_,hmatches,hwaited,rfl⟩
    have hcloses : ¬Closing header := fun h => hdisconnect (hopcode.symm.trans h.2)
    have hopens : ∀ response,answer=.ok response → ¬Opening response := fun response h hopen =>
      hconnect ((hmatches response h).2.symm.trans hopen.2.1)
    exact (changes_command hcloses sent).comp (changes_awaited hwaited hopens)
  rintro answer events (⟨rfl,rfl,-⟩ | h)
  · exact quiet_pure _
  · cases answer with
    | error code =>
      refine emits_pure ?_
      rw [List.append_nil]
      exact hasked h
    | ok response =>
      refine (hfinish response).mono ?_
      rintro _ _ ⟨pairs,rfl⟩
      exact (hasked h).comp (changes_words pairs)

theorem words_discard (response : ClpHeader) :
    Emits Link.log (discardResponseError (α := α) peer response)
      (fun _ events => ∃ pairs,events=wordEvents pairs) := by
  refine (emits_clWireDiscardPayload peer.transport response.length).bind ?_
  rintro _ _ ⟨pairs,rfl,-⟩
  exact emits_pure ⟨pairs,by simp⟩

theorem words_exact (expected : UInt32) (parse : List UInt8 → Except ℤ α)
    (response : ClpHeader) :
    Emits Link.log (expectExact peer expected parse response)
      (fun _ events => ∃ pairs,events=wordEvents pairs) := by
  unfold expectExact
  split
  · refine (emits_readPayloadWords peer.transport expected).bind ?_
    rintro _ _ ⟨pairs,rfl,-⟩
    exact emits_pure ⟨pairs,by simp⟩
  · exact words_discard response

theorem words_within (low high : UInt32) (parse : UInt32 → List UInt8 → Except ℤ α)
    (response : ClpHeader) :
    Emits Link.log (expectWithin peer low high parse response)
      (fun _ events => ∃ pairs,events=wordEvents pairs) := by
  unfold expectWithin
  split
  · exact words_discard response
  · refine (emits_readPayloadWords peer.transport response.length).bind ?_
    rintro _ _ ⟨pairs,rfl,-⟩
    exact emits_pure ⟨pairs,by simp⟩

theorem words_statusOnly (response : ClpHeader) :
    Emits Link.log (statusOnly (δ := δ) response)
      (fun _ events => ∃ pairs,events=wordEvents pairs) := emits_pure ⟨[],rfl⟩

theorem words_expectAck (response : ClpHeader) :
    Emits Link.log (expectAck peer response)
      (fun _ events => ∃ pairs,events=wordEvents pairs) := by
  unfold expectAck
  split
  · exact emits_pure ⟨[],rfl⟩
  · exact words_discard response

end Exchanges

section Operations

variable (peer : Peer δ)

theorem quiet_clBleScanStop : Quiet (clBleScanStop peer) :=
  quiet_exchange (by decide) (by decide) words_statusOnly

theorem quiet_clBleScanStartEx (durationMs intervalUs windowUs : UInt16) (flags : UInt32) :
    Quiet (clBleScanStartEx peer durationMs intervalUs windowUs flags) :=
  (quiet_exchange (by decide) (by decide) words_expectAck).withScratch

theorem quiet_clBleEventNext (maxData : ℕ) : Quiet (clBleEventNext peer maxData) :=
  (quiet_refuse _).ite
    (quiet_exchange (by decide) (by decide) (words_within _ _ _)).withScratch

theorem quiet_findPeer (attempts : ℕ) : Quiet (findPeer peer attempts) := by
  induction attempts with
  | zero => exact quiet_pure _
  | succ attempts ih =>
    refine (quiet_clBleEventNext peer _).bind fun next => ?_
    cases next with
    | error code => exact quiet_pure _
    | ok event => exact (quiet_pure _).ite ((quiet_pure _).ite ih)

theorem quiet_clBleGattFindDesc (handle chrValueHandle endHandle : UInt16) :
    Quiet (clBleGattFindDesc peer handle chrValueHandle endHandle clBleUuidCccd) :=
  (quiet_refuse _).ite
    (quiet_exchange (by decide) (by decide) (words_exact _ _)).withScratch

theorem quiet_clBleGattWrite (handle attr : UInt16) (data : List UInt8) :
    Quiet (clBleGattWrite peer handle attr data) :=
  (quiet_refuse _).ite
    (quiet_exchange (by decide) (by decide) (words_exact _ _)).withScratch

theorem quiet_clBleGattNotify (handle attr : UInt16) (enable : Bool) :
    Quiet (clBleGattNotify peer handle attr enable) :=
  (quiet_refuse _).ite (quiet_exchange (by decide) (by decide) words_statusOnly).withScratch

theorem quiet_clBleGattSubscribe (handle valueHandle endHandle : UInt16)
    (enable indicate : Bool) :
    Quiet (clBleGattSubscribe peer handle valueHandle endHandle enable indicate) := by
  refine (quiet_refuse _).ite ((quiet_refuse _).ite ?_)
  refine (quiet_clBleGattFindDesc peer handle valueHandle _).andThen fun desc => ?_
  refine (quiet_clBleGattWrite peer handle desc.handle _).andThen fun written => ?_
  exact (quiet_refuse _).ite (quiet_clBleGattNotify peer handle valueHandle enable)

theorem quiet_clBleGattFindService128 (handle startHandle endHandle : UInt16)
    (uuid128 : Uuid128) :
    Quiet (clBleGattFindService128 peer handle startHandle endHandle uuid128) :=
  (quiet_exchange (by decide) (by decide) (words_exact _ _)).withScratch

theorem quiet_clBleGattFindChr128 (handle startHandle endHandle : UInt16)
    (uuid128 : Uuid128) :
    Quiet (clBleGattFindChr128 peer handle startHandle endHandle uuid128) :=
  (quiet_exchange (by decide) (by decide) (words_exact _ _)).withScratch

theorem quiet_bleGattsAddService (flags : UInt32) (uuid16 : UInt16) (uuid128 : Option Uuid128) :
    Quiet (bleGattsAddService peer flags uuid16 uuid128) := by
  unfold bleGattsAddService
  dsimp only
  split
  · exact quiet_refuse _
  · exact (quiet_exchange (by decide) (by decide) (words_exact _ _)).withScratch

theorem quiet_bleGattsAddAttr {opcode : UInt8} (hconnect : opcode≠clpBleConnect)
    (hdisconnect : opcode≠clpBleDisconnect) (parent : UInt16) (flags : UInt32)
    (uuid16 : UInt16) (uuid128 : Option Uuid128) (value : List UInt8) :
    Quiet (bleGattsAddAttr peer opcode parent flags uuid16 uuid128 value) := by
  unfold bleGattsAddAttr
  refine (quiet_refuse _).ite ?_
  dsimp only
  split
  · exact quiet_refuse _
  · exact (quiet_exchange hconnect hdisconnect (words_exact _ _)).withScratch

/-- Setting up the services of a host leaves the connections as they are. -/
theorem quiet_hostServices : Quiet (hostServices peer) := by
  refine Quiet.andThen (quiet_exchange (by decide) (by decide) words_expectAck) fun _ => ?_
  refine (quiet_bleGattsAddService peer _ _ _).andThen fun svc => ?_
  refine (quiet_bleGattsAddAttr peer (by decide) (by decide) _ _ _ _ _).andThen fun _ => ?_
  refine (quiet_bleGattsAddAttr peer (by decide) (by decide) _ _ _ _ _).andThen fun tx => ?_
  exact Quiet.andThen (quiet_exchange (by decide) (by decide) words_expectAck) fun _ =>
    quiet_pure _

theorem quiet_clBleAdvStart (config : BleAdvConfig) : Quiet (clBleAdvStart peer config) :=
  (quiet_refuse _).ite (quiet_exchange (by decide) (by decide) words_expectAck).withScratch

end Operations

section Connections

/-- Events that open a connection behind an answer. -/
theorem changes_opened {answer : ClpHeader} {events : List LinkEvent}
    (hwaited : Awaited (.ok answer) events) (hopens : Opening answer)
    (pair : UInt32×UInt32) (pairs : List (UInt32×UInt32)) :
    Changes (if pair.2.toUInt16≠0 then List.cons pair.2.toUInt16 else id)
      (events++wordEvents (pair::pairs)) := by
  obtain ⟨first,rfl⟩ := hwaited
  intro known rest
  have hgranted : grantedHandle (wordEvents (pair::pairs)++rest)=pair.2.toUInt16 := rfl
  rw [List.append_assoc,List.append_assoc,connectionsFrom_wordEvents,List.singleton_append,
    connectionsFrom,hgranted,connectionsFrom_wordEvents]
  by_cases hzero : pair.2.toUInt16=0
  · rw [if_neg fun h => h.2 hzero,if_neg fun h => h hzero]
    rfl
  · rw [if_pos ⟨hopens,hzero⟩,if_pos hzero]

/-- What a connection attempt leaves behind: an open connection if it succeeds. -/
def Connected (peer : Peer δ) (result : Except ℤ UInt16) (events : List LinkEvent) : Prop :=
  match result with
  | .error _ => Changes id events
  | .ok handle => handle≠0 ∧ 4≤peer.scratchSize ∧ Changes (List.cons handle) events

/-- Events before the attempt that change nothing. -/
theorem Connected.after {result : Except ℤ UInt16} {first events : List LinkEvent}
    (hfirst : Changes id first) (h : Connected peer result events) :
    Connected peer result (first++events) := by
  cases result with
  | error code => exact hfirst.comp h
  | ok handle => exact ⟨h.1,h.2.1,hfirst.comp h.2.2⟩

theorem emits_clBleConnect (addr : BleAddr) :
    Emits Link.log (clBleConnect peer addr) (Connected peer) := by
  unfold clBleConnect ClientExchange.withScratch
  split
  next => exact emits_pure changes_nil
  next hscratch =>
    unfold exchange ClientExchange.andThen
    refine (emits_commandAnswer peer.transport).bind ?_
    rintro answer _ (⟨rfl,rfl,-⟩ |
      ⟨header,sent,waited,hchannel,hopcode,_,hmatches,hwaited,rfl⟩)
    · exact emits_pure changes_nil
    · have hcloses : ¬Closing header := fun h => absurd (hopcode.symm.trans h.2) (by decide)
      have hcommand := changes_command hcloses sent
      cases answer with
      | error code =>
        refine emits_pure ?_
        rw [List.append_nil]
        exact hcommand.comp (changes_awaited hwaited fun _ h => by cases h)
      | ok response =>
        obtain ⟨hsame,hcode⟩ := hmatches response rfl
        dsimp only
        unfold expectExact
        split
        next hok =>
          have hopens : Opening response := ⟨hsame,hcode,hok⟩
          refine (emits_readPayloadWords peer.transport 4).bind ?_
          rintro _ _ ⟨pairs,rfl,rfl,hlength⟩
          have hone : pairs.length=1 := hlength
          obtain ⟨pair,rfl⟩ := List.length_eq_one_iff.mp hone
          have hword : wordAt (payloadBytes ([pair].map Prod.snd) 4) 0=pair.2 :=
            loadLe32_storeLe32 pair.2
          have hevents := hcommand.comp (changes_opened hwaited hopens pair [])
          rw [← List.append_assoc] at hevents
          refine emits_pure ?_
          unfold clBleParseHandleResponse
          rw [hword,List.append_nil]
          by_cases hzero : pair.2.toUInt16=0
          · rw [if_neg fun h => h hzero] at hevents
            dsimp only
            rw [if_pos hzero]
            exact hevents
          · rw [if_pos hzero] at hevents
            dsimp only
            rw [if_neg hzero]
            exact ⟨hzero,by omega,hevents⟩
        next hok =>
          have hopens : ∀ accepted,
              (Except.ok response : Except ℤ ClpHeader)=.ok accepted → ¬Opening accepted := by
            intro accepted h hopen
            cases h
            exact hok hopen.2.2
          refine (emits_clWireDiscardPayload peer.transport response.length).bind ?_
          rintro _ _ ⟨pairs,rfl,-⟩
          refine emits_pure ?_
          have hrest := (hcommand.comp (changes_awaited hwaited hopens)).comp (changes_words pairs)
          rw [List.append_nil]
          exact hrest

/-- A command with a handle in its request. -/
theorem requestedHandle_sent {header : ClpHeader} {handle : UInt16}
    {sent : List (UInt32×UInt32)} (rest : List LinkEvent)
    (hsent : sent.map Prod.fst=clpEncodeHeaderWords header++
      payloadWords [le32 handle.toUInt32].flatten) :
    requestedHandle (wordEvents sent++rest)=handle := by
  have hpayload : payloadWords [le32 handle.toUInt32].flatten=[handle.toUInt32] := by
    have hbytes : [le32 handle.toUInt32].flatten=
        [handle.toUInt32].flatMap fun word => storeLe32 word 4 := rfl
    rw [hbytes]
    exact payloadWords_stored (by rw [List.length_singleton]; decide)
  unfold requestedHandle
  rw [sentOf_wordEvents,hsent,hpayload]
  have hword : (clpEncodeHeaderWords header++[handle.toUInt32]++sentOf rest).getD 4 0=
      handle.toUInt32 := rfl
  rw [hword,UInt16.toUInt16_toUInt32]

/-- Giving up a connection closes it, whatever the device answers. -/
theorem emits_clBleDisconnect {handle : UInt16} (hhandle : handle≠0)
    (hscratch : 4≤peer.scratchSize) :
    Emits Link.log (clBleDisconnect peer handle)
      (fun _ events => Changes (fun known => known.erase handle) events) := by
  have hshort : wirePayloadLength [le32 handle.toUInt32]=some 4 := rfl
  unfold clBleDisconnect ClientExchange.withScratch
  rw [if_neg hhandle,if_neg (Nat.not_lt.mpr hscratch)]
  unfold exchange ClientExchange.andThen
  refine (emits_commandAnswer peer.transport).bind ?_
  rintro answer _ (⟨-,-,hlong⟩ |
    ⟨header,sent,waited,hchannel,hopcode,hsent,hmatches,hwaited,rfl⟩)
  · rw [hshort] at hlong
    cases hlong
  · have hcommand : Changes (fun known => known.erase handle)
        (.command header::wordEvents sent) := by
      intro known rest
      rw [List.cons_append,connectionsFrom,if_pos ⟨hchannel,hopcode⟩,
        requestedHandle_sent rest hsent,connectionsFrom_wordEvents]
    have hopens : ∀ response,answer=.ok response → ¬Opening response := fun response h hopen =>
      absurd ((hmatches response h).2.symm.trans hopen.2.1) (by decide)
    have hevents := hcommand.comp (changes_awaited hwaited hopens)
    cases answer with
    | error code =>
      refine emits_pure ?_
      rw [List.append_nil]
      exact hevents
    | ok response =>
      refine (words_statusOnly response).mono ?_
      rintro _ _ ⟨pairs,rfl⟩
      exact hevents.comp (changes_words pairs)

end Connections

end ChisLink.BleConnections
