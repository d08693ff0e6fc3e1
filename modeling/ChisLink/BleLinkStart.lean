import ChisLink.AnsweringDevice
import ChisLink.BleConnections

/-!
# Failed starts of the game link

A start that fails gives up the connection that it has opened, whatever the device
answers. It does not take back an attribute that it has recorded: the host records
its characteristic before it advertises, and the joining side records where to write
before it has subscribed.
-/

namespace ChisLink.BleLinkStart

open DriverPrograms WireProtocol StorageClient StorageBoundary WireCommands ClientExchange
  AnsweringDevice BleClient BleConnections

variable {δ : Type}

/-- A link without attributes. -/
structure Inactive (link : BleLink) : Prop where
  /-- Nothing notifies. -/
  notifyAttr : link.notifyAttr=0
  /-- Nothing can be written. -/
  rxAttr : link.rxAttr=0
  /-- Nothing can be notified. -/
  txChr : link.txChr=0

/-- What a failed start should leave behind: a link without attributes, on which
nothing can be sent, and no connection. -/
structure NoLink (ble : Peer δ) (link : BleLink) (events : List LinkEvent) : Prop where
  /-- No attribute is recorded. -/
  inactive : Inactive link
  /-- Connections that were opened are closed. -/
  closed : connections events=[]
  /-- Sending is refused, and nothing is exchanged. -/
  refused : ∀ handle data s,clBleLinkSend ble link handle data s=(some (.error (-1)),s)

/-- The run of a start leaves no link behind if it fails. -/
def LeavesNoLink (ble : Peer δ) (start : Prog (Link δ) (Except ℤ ℕ×BleLink)) (s : Link δ) :
    Prop :=
  ∀ code link t,start s=(some (.error code,link),t) → NoLink ble link (t.log.drop s.log.length)

/-- Nothing is sent on a link without attributes. -/
theorem Inactive.refused {link : BleLink} (h : Inactive link) (ble : Peer δ) (handle : UInt16)
    (data : List UInt8) (s : Link δ) :
    clBleLinkSend ble link handle data s=(some (.error (-1)),s) := by
  unfold clBleLinkSend
  by_cases hhandle : handle=0
  · rw [if_pos hhandle]
    rfl
  · rw [if_neg hhandle,if_neg fun hhost => hhost.2 h.txChr,if_neg fun hrx => hrx h.rxAttr]
    rfl

/-- A start that fails after its events. -/
theorem leavesNoLink_error {ble : Peer δ} {start : Prog (Link δ) (Except ℤ ℕ×BleLink)}
    {s t : Link δ} {code : ℤ} {link : BleLink} {events : List LinkEvent}
    (hrun : start s=(some (.error code,link),t)) (hlog : t.log=s.log++events)
    (hclosed : connections events=[]) : LeavesNoLink ble start s ↔ Inactive link := by
  have hdrop : t.log.drop s.log.length=events := by rw [hlog,List.drop_left]
  constructor
  · intro h
    exact (h code link t hrun).inactive
  · intro hinactive code' link' t' hrun'
    rw [hrun] at hrun'
    cases hrun'
    exact ⟨hinactive,by rw [hdrop]; exact hclosed,hinactive.refused ble⟩

/-- A start that succeeds leaves nothing to say. -/
theorem leavesNoLink_ok {ble : Peer δ} {start : Prog (Link δ) (Except ℤ ℕ×BleLink)}
    {s t : Link δ} {value : ℕ} {link : BleLink}
    (hrun : start s=(some (.ok value,link),t)) : LeavesNoLink ble start s := by
  intro code link' t' hrun'
  rw [hrun] at hrun'
  cases hrun'

section Host

/-- What the host advertises. -/
def hostAdvert (name : CString) : BleAdvConfig :=
  ⟨0,0,0,[],[clBleLinkServiceUuid128],some name⟩

/-- The services of the host are set up, and then advertising them fails. -/
def AdvertisingFails (ble : Peer δ) (name : CString) (s : Link δ) : Prop :=
  ∃ tx t code u,hostServices ble s=(some (.ok tx),t) ∧ tx≠0 ∧
    clBleAdvStart ble (hostAdvert name) t=(some (.error code),u)

/-- The host leaves no link behind unless advertising fails. -/
theorem leavesNoLink_linkHost (ble : Peer δ) (name : CString) (s : Link δ) :
    LeavesNoLink ble (linkHost ble name ⟨.host,0,0,0⟩) s ↔ ¬AdvertisingFails ble name s := by
  obtain ⟨services,t,first,hservices,hfirst,hquiet⟩ := (quiet_hostServices ble).returns s
  cases services with
  | error code =>
    have hrun : linkHost ble name ⟨.host,0,0,0⟩ s=
        (some (.error code,⟨.host,0,0,0⟩),t) := by
      unfold linkHost
      rw [bind_run hservices]
      rfl
    rw [leavesNoLink_error hrun hfirst hquiet.connections]
    refine iff_of_true ⟨rfl,rfl,rfl⟩ ?_
    rintro ⟨tx,t',_,_,hok,-⟩
    rw [hservices] at hok
    cases hok
  | ok tx =>
    obtain ⟨advertised,u,second,hadvertised,hsecond,hstill⟩ :=
      (quiet_clBleAdvStart ble (hostAdvert name)).returns t
    have hlog : u.log=s.log++(first++second) := by rw [hsecond,hfirst,List.append_assoc]
    cases advertised with
    | error code =>
      have hrun : linkHost ble name ⟨.host,0,0,0⟩ s=
          (some (.error code,⟨.host,0,0,tx⟩),u) := by
        unfold linkHost
        rw [bind_run hservices]
        dsimp only
        change (clBleAdvStart ble (hostAdvert name) >>= _) t=_
        rw [bind_run hadvertised]
        rfl
      rw [leavesNoLink_error hrun hlog (hquiet.comp hstill).connections]
      constructor
      · rintro hinactive ⟨tx',t',_,_,hok,hne,-⟩
        rw [hservices] at hok
        cases hok
        exact hne hinactive.txChr
      · intro hadvert
        refine ⟨rfl,rfl,?_⟩
        by_contra hne
        exact hadvert ⟨tx,t,code,u,hservices,hne,hadvertised⟩
    | ok _ =>
      have hrun : linkHost ble name ⟨.host,0,0,0⟩ s=
          (some (.ok 0,⟨.host,0,0,tx⟩),u) := by
        unfold linkHost
        rw [bind_run hservices]
        dsimp only
        change (clBleAdvStart ble (hostAdvert name) >>= _) t=_
        rw [bind_run hadvertised]
        rfl
      refine iff_of_true (leavesNoLink_ok hrun) ?_
      rintro ⟨tx',t',code,u',hok,-,hfails⟩
      rw [hservices] at hok
      cases hok
      rw [hadvertised] at hfails
      cases hfails

end Host

section Join

/-- The joining side up to its connection: scan, find a peer and connect to it. -/
def reachPeer (ble : Peer δ) : Prog (Link δ) (Except ℤ UInt16) := do
  let scanning ← clBleScanStartEx ble 3000 0 0 clpBleScanFlagActive
  match scanning with
  | .error code => pure (.error code)
  | .ok _ => do
    let found ← findPeer ble 600
    let _ ← clBleScanStop ble
    match found with
    | none => pure (.error (-3))
    | some (bytes,type) => clBleConnect ble (addrOf bytes type)

/-- Then up to the attribute that it records: the service and where to write in it. -/
def findReceiver (ble : Peer δ) (handle : UInt16) :
    Prog (Link δ) (Except ℤ (BleService×BleChr)) :=
  andThen (clBleGattFindService128 ble handle 1 0xffff clBleLinkServiceUuid128) fun service =>
    andThen (clBleGattFindChr128 ble handle service.startHandle service.endHandle
      clBleLinkRxUuid128) fun rx => pure (.ok (service,rx))

/-- Then what is left: find what notifies and subscribe to it. -/
def followTransmitter (ble : Peer δ) (handle : UInt16) (service : BleService) :
    Prog (Link δ) (Except ℤ BleChr) :=
  andThen (clBleGattFindChr128 ble handle service.startHandle service.endHandle
    clBleLinkTxUuid128) fun tx =>
      andThen (clBleGattSubscribe ble handle tx.valueHandle 0xffff true false) fun _ =>
        pure (.ok tx)

/-- The joining side has found where to write, and then a step fails. -/
def FollowingFails (ble : Peer δ) (s : Link δ) : Prop :=
  ∃ handle t service rx u code v,reachPeer ble s=(some (.ok handle),t) ∧
    findReceiver ble handle t=(some (.ok (service,rx)),u) ∧
    followTransmitter ble handle service u=(some (.error code),v)

/-- The joining side in these parts. -/
theorem linkJoin_eq (ble : Peer δ) (link : BleLink) :
    linkJoin ble link=reachPeer ble >>= fun reached => match reached with
      | .error code => pure (.error code,link)
      | .ok handle => joinOn ble handle link := by
  unfold linkJoin reachPeer
  rw [bind_bind]
  congr 1
  funext scanning
  cases scanning with
  | error code => rfl
  | ok _ =>
    dsimp only
    rw [bind_bind]
    congr 1
    funext found
    rw [bind_bind]
    congr 1
    funext _
    rcases found with _ | ⟨bytes,type⟩ <;> rfl

theorem joinOn_eq (ble : Peer δ) (handle : UInt16) (link : BleLink) :
    joinOn ble handle link=findReceiver ble handle >>= fun found => match found with
      | .error code => dropConnection ble handle code link
      | .ok (service,rx) => followTransmitter ble handle service >>= fun followed =>
        match followed with
        | .error code =>
          dropConnection ble handle code { link with rxAttr := rx.valueHandle }
        | .ok tx => pure (.ok handle.toNat,
          { link with rxAttr := rx.valueHandle, notifyAttr := tx.valueHandle }) := by
  unfold joinOn findReceiver followTransmitter ClientExchange.andThen
  rw [bind_bind]
  congr 1
  funext service
  cases service with
  | error code => rfl
  | ok service =>
    dsimp only
    rw [bind_bind]
    congr 1
    funext rx
    cases rx with
    | error code => rfl
    | ok rx =>
      dsimp only [DriverPrograms.pure_bind]
      rw [bind_bind]
      congr 1
      funext tx
      cases tx with
      | error code => rfl
      | ok tx =>
        dsimp only
        rw [bind_bind]
        congr 1
        funext subscribed
        cases subscribed <;> rfl

theorem emits_reachPeer (ble : Peer δ) : Emits Link.log (reachPeer ble) (Connected ble) := by
  unfold reachPeer
  refine Emits.bind (quiet_clBleScanStartEx ble 3000 0 0 clpBleScanFlagActive) ?_
  intro scanning first hfirst
  cases scanning with
  | error code =>
    refine emits_pure ?_
    rw [List.append_nil]
    exact hfirst
  | ok _ =>
    refine Emits.bind (quiet_findPeer ble 600) ?_
    intro found second hsecond
    refine Emits.bind (quiet_clBleScanStop ble) ?_
    intro _ third hthird
    rcases found with _ | ⟨bytes,type⟩
    · refine emits_pure ?_
      rw [List.append_nil]
      exact hfirst.comp (hsecond.comp hthird)
    · refine (emits_clBleConnect (addrOf bytes type)).mono ?_
      intro result events hconnected
      exact ((hconnected.after hthird).after hsecond).after hfirst

theorem quiet_findReceiver (ble : Peer δ) (handle : UInt16) :
    Quiet (findReceiver ble handle) :=
  (quiet_clBleGattFindService128 ble handle _ _ _).andThen fun _ =>
    (quiet_clBleGattFindChr128 ble handle _ _ _).andThen fun _ => quiet_pure _

theorem quiet_followTransmitter (ble : Peer δ) (handle : UInt16) (service : BleService) :
    Quiet (followTransmitter ble handle service) :=
  (quiet_clBleGattFindChr128 ble handle _ _ _).andThen fun tx =>
    (quiet_clBleGattSubscribe ble handle tx.valueHandle _ _ _).andThen fun _ => quiet_pure _

/-- A characteristic that was found has an attribute. -/
theorem clBleParseGattChrResponse_ne {payload : List UInt8} {chr : BleChr}
    (h : clBleParseGattChrResponse payload=.ok chr) : chr.valueHandle≠0 := by
  unfold clBleParseGattChrResponse clBleParseGattFindChr16Response at h
  dsimp only at h
  split at h
  · cases h
  · cases h
    assumption

theorem emits_clBleGattFindChr128_ne (ble : Peer δ) (handle startHandle endHandle : UInt16)
    (uuid128 : Uuid128) :
    Emits Link.log (clBleGattFindChr128 ble handle startHandle endHandle uuid128)
      (fun result _ => ∀ chr,result=.ok chr → chr.valueHandle≠0) := by
  unfold clBleGattFindChr128 ClientExchange.withScratch
  split
  · exact emits_pure fun _ h => by cases h
  · refine (emits_commandAnswer ble.transport).bind fun answer _ _ => ?_
    cases answer with
    | error code => exact emits_pure fun _ h => by cases h
    | ok response =>
      dsimp only
      unfold expectExact
      split
      · refine (emits_readPayloadWords ble.transport 12).bind fun payload _ _ => ?_
        exact emits_pure fun _ h => clBleParseGattChrResponse_ne h
      · refine (emits_clWireDiscardPayload ble.transport _).bind fun _ _ _ => ?_
        exact emits_pure fun _ h => by cases h

/-- The attribute to write is one. -/
theorem findReceiver_ne {ble : Peer δ} {handle : UInt16} {t u : Link δ} {service : BleService}
    {rx : BleChr} (h : findReceiver ble handle t=(some (.ok (service,rx)),u)) :
    rx.valueHandle≠0 := by
  have hemits : Emits Link.log (findReceiver ble handle)
      (fun result _ => ∀ found,result=.ok found → found.2.valueHandle≠0) := by
    refine Emits.bind (quiet_clBleGattFindService128 ble handle _ _ _) fun service _ _ => ?_
    cases service with
    | error code => exact emits_pure fun _ h => by cases h
    | ok service =>
      refine (emits_clBleGattFindChr128_ne ble handle _ _ _).bind fun rx _ hrx => ?_
      cases rx with
      | error code => exact emits_pure fun _ h => by cases h
      | ok rx =>
        refine emits_pure fun found h => ?_
        cases h
        exact hrx rx rfl
  obtain ⟨_,_,hne⟩ := hemits.of_run h
  exact hne (service,rx) rfl

/-- Giving up closes the connection and keeps the attributes. -/
theorem emits_dropConnection {ble : Peer δ} {handle : UInt16} (hhandle : handle≠0)
    (hscratch : 4≤ ble.scratchSize) (code : ℤ) (link : BleLink) :
    Emits Link.log (dropConnection ble handle code link)
      (fun result events => result=(.error code,link) ∧
        Changes (fun known => known.erase handle) events) := by
  refine (emits_clBleDisconnect hhandle hscratch).bind ?_
  intro _ events hevents
  refine emits_pure ⟨rfl,?_⟩
  rw [List.append_nil]
  exact hevents

/-- A connection that was opened last and is given up. -/
theorem connections_dropped {handle : UInt16} {opened quiet closed : List LinkEvent}
    (hopened : Changes (List.cons handle) opened) (hquiet : Changes id quiet)
    (hclosed : Changes (fun known => known.erase handle) closed) :
    connections (opened++(quiet++closed))=[] := by
  rw [(hopened.comp (hquiet.comp hclosed)).connections]
  change [handle].erase handle=[]
  rw [List.erase_cons_head]

/-- The joining side leaves no link behind unless a step fails after it has found where
to write. -/
theorem leavesNoLink_linkJoin (ble : Peer δ) (s : Link δ) :
    LeavesNoLink ble (linkJoin ble ⟨.join,0,0,0⟩) s ↔ ¬FollowingFails ble s := by
  obtain ⟨link,hlink⟩ : ∃ link : BleLink,link=⟨.join,0,0,0⟩ := ⟨_,rfl⟩
  obtain ⟨reached,t,opened,hreach,hopened,hconnected⟩ := (emits_reachPeer ble).returns s
  have hjoin := linkJoin_eq ble link
  rw [← hlink]
  cases reached with
  | error code =>
    have hrun : linkJoin ble link s=(some (.error code,link),t) := by
      rw [hjoin,bind_run hreach]
      rfl
    rw [leavesNoLink_error hrun hopened (Changes.connections hconnected)]
    refine iff_of_true (by rw [hlink]; exact ⟨rfl,rfl,rfl⟩) ?_
    rintro ⟨handle,t',_,_,_,_,_,hok,-⟩
    rw [hreach] at hok
    cases hok
  | ok handle =>
    obtain ⟨hhandle,hscratch,hopens⟩ := hconnected
    obtain ⟨found,u,quiet,hfind,hquiet,hstill⟩ := (quiet_findReceiver ble handle).returns t
    cases found with
    | error code =>
      obtain ⟨result,v,closed,hdrop,hclosed,rfl,hcloses⟩ :=
        (emits_dropConnection hhandle hscratch code link).returns u
      have hrun : linkJoin ble link s=(some (.error code,link),v) := by
        rw [hjoin,bind_run hreach]
        dsimp only
        rw [joinOn_eq,bind_run hfind]
        exact hdrop
      have hlog : v.log=s.log++(opened++(quiet++closed)) := by
        rw [hclosed,hquiet,hopened,List.append_assoc,List.append_assoc]
      rw [leavesNoLink_error hrun hlog (connections_dropped hopens hstill hcloses)]
      refine iff_of_true (by rw [hlink]; exact ⟨rfl,rfl,rfl⟩) ?_
      rintro ⟨handle',t',_,_,_,_,_,hok,hfound,-⟩
      rw [hreach] at hok
      cases hok
      rw [hfind] at hfound
      cases hfound
    | ok found =>
      obtain ⟨service,rx⟩ := found
      obtain ⟨followed,v,more,hfollow,hmore,hsilent⟩ :=
        (quiet_followTransmitter ble handle service).returns u
      cases followed with
      | error code =>
        obtain ⟨result,w,closed,hdrop,hclosed,rfl,hcloses⟩ :=
          (emits_dropConnection hhandle hscratch code
            { link with rxAttr := rx.valueHandle }).returns v
        have hrun : linkJoin ble link s=
            (some (.error code,{ link with rxAttr := rx.valueHandle }),w) := by
          rw [hjoin,bind_run hreach]
          dsimp only
          rw [joinOn_eq,bind_run hfind]
          dsimp only
          rw [bind_run hfollow]
          exact hdrop
        have hlog : w.log=s.log++(opened++((quiet++more)++closed)) := by
          rw [hclosed,hmore,hquiet,hopened]
          simp only [List.append_assoc]
        rw [leavesNoLink_error hrun hlog
          (connections_dropped hopens (hstill.comp hsilent) hcloses)]
        refine iff_of_false ?_ fun h =>
          h ⟨handle,t,service,rx,u,code,v,hreach,hfind,hfollow⟩
        exact fun hinactive => findReceiver_ne hfind hinactive.rxAttr
      | ok tx =>
        have hrun : linkJoin ble link s=(some (.ok handle.toNat,
            { link with rxAttr := rx.valueHandle, notifyAttr := tx.valueHandle }),v) := by
          rw [hjoin,bind_run hreach]
          dsimp only
          rw [joinOn_eq,bind_run hfind]
          dsimp only
          rw [bind_run hfollow]
          rfl
        refine iff_of_true (leavesNoLink_ok hrun) ?_
        rintro ⟨handle',t',service',_,u',_,v',hok,hfound,hfails⟩
        rw [hreach] at hok
        cases hok
        rw [hfind] at hfound
        cases hfound
        rw [hfollow] at hfails
        cases hfails

end Join

/-- The arguments are those of one of the two roles. -/
def Accepted (role : LinkRole) (name : CString) : Prop := name.1≠[] ∧ role≠.other

/-- A failed start leaves no link behind exactly if it was not refused on an active
link, the host did not fail to advertise the services that it has set up, and the
joining side did not fail after it has found where to write. -/
theorem link_start_leaves_none_iff (ble : Peer δ) (link : BleLink) (role : LinkRole)
    (name : CString) (s : Link δ) :
    LeavesNoLink ble (clBleLinkStart ble link role name) s ↔
      (Accepted role name ∨ Inactive link) ∧
        (Accepted role name → role=.host → ¬AdvertisingFails ble name s) ∧
        (Accepted role name → role=.join → ¬FollowingFails ble s) := by
  have hrefused : clBleLinkStart ble link role name s=(some (.error (-1),link),s) →
      ¬Accepted role name → (LeavesNoLink ble (clBleLinkStart ble link role name) s ↔
        (Accepted role name ∨ Inactive link) ∧
          (Accepted role name → role=.host → ¬AdvertisingFails ble name s) ∧
          (Accepted role name → role=.join → ¬FollowingFails ble s)) := by
    intro hrun hnot
    rw [leavesNoLink_error hrun (List.append_nil _).symm rfl]
    constructor
    · exact fun h => ⟨Or.inr h,fun haccepted => absurd haccepted hnot,
        fun haccepted => absurd haccepted hnot⟩
    · exact fun h => h.1.resolve_left hnot
  by_cases hname : name.1=[]
  · refine hrefused ?_ fun h => h.1 hname
    unfold clBleLinkStart
    rw [if_pos hname]
    rfl
  · cases role with
    | host =>
      have haccepted : Accepted .host name := ⟨hname,fun h => by cases h⟩
      have hrun : clBleLinkStart ble link .host name=linkHost ble name ⟨.host,0,0,0⟩ := by
        unfold clBleLinkStart
        rw [if_neg hname]
      rw [hrun,leavesNoLink_linkHost]
      constructor
      · exact fun h => ⟨Or.inl haccepted,fun _ _ => h,fun _ hrole => by cases hrole⟩
      · exact fun h => h.2.1 haccepted rfl
    | join =>
      have haccepted : Accepted .join name := ⟨hname,fun h => by cases h⟩
      have hrun : clBleLinkStart ble link .join name=linkJoin ble ⟨.join,0,0,0⟩ := by
        unfold clBleLinkStart
        rw [if_neg hname]
      rw [hrun,leavesNoLink_linkJoin]
      constructor
      · exact fun h => ⟨Or.inl haccepted,fun _ hrole => (by cases hrole),fun _ _ => h⟩
      · exact fun h => h.2.2 haccepted rfl
    | other =>
      refine hrefused ?_ fun h => h.2 rfl
      unfold clBleLinkStart
      rw [if_neg hname]
      rfl

/-- Serve a host: identifiers for what is added, and no advertising. -/
def serveHost (header : ClpHeader) (_payload : List UInt8) (store : Unit) : Reply×Unit :=
  if header.opcode=clpBleAdvStart then (.ack clpStatusTimeout,store)
  else if header.opcode=clpBleGattsAddService ∨ header.opcode=clpBleGattsAddChr then
    (.response clpStatusOk 0 0 (le32 7),store)
  else (.ack clpStatusOk,store)

/-- A client of this device. -/
def hostPeer : Peer (Responder Unit) := ⟨respond serveHost,64,fun _ => 0⟩

/-- The link of the client before its first command. -/
def hostLink : Link (Responder Unit) := ⟨⟨[],[],()⟩,⟨.idle,0,clpStatusOk,0⟩,[]⟩

/-- Its name. -/
def hostName : CString := ⟨[71],by decide⟩

/-- The code of a start, and the characteristic that it has recorded. -/
def recorded (result : Option (Except ℤ ℕ×BleLink)) : Option (ℤ×UInt16) :=
  result.map fun outcome =>
    (match outcome.1 with
    | .error code => code
    | .ok value => value,outcome.2.txChr)

/-- A failure that has recorded a characteristic leaves a link behind. -/
theorem not_leavesNoLink {ble : Peer δ} {start : Prog (Link δ) (Except ℤ ℕ×BleLink)}
    {s : Link δ} {code : ℤ} {chr : UInt16} (hrun : recorded (start s).1=some (code,chr))
    (hcode : code<0) (hchr : chr≠0) : ¬LeavesNoLink ble start s := by
  intro h
  rcases hstart : start s with ⟨_ | ⟨code' | value,link⟩,t⟩
  · rw [hstart] at hrun
    cases hrun
  · rw [hstart] at hrun
    cases hrun
    exact hchr (h _ link t hstart).inactive.txChr
  · rw [hstart] at hrun
    cases hrun
    exact absurd hcode (Int.not_lt.mpr (Int.natCast_nonneg value))

/-- A host that is not allowed to advertise keeps its characteristic. -/
theorem link_start_leaves_none_fails :
    ¬∀ (ble : Peer (Responder Unit)) (link : BleLink) (role : LinkRole) (name : CString)
      (s : Link (Responder Unit)),Inactive link →
      LeavesNoLink ble (clBleLinkStart ble link role name) s := by
  intro h
  have hrun : recorded (clBleLinkStart hostPeer ⟨.host,0,0,0⟩ .host hostName hostLink).1=
      some (-15,7) := by decide +kernel
  exact not_leavesNoLink hrun (by decide) (by decide)
    (h hostPeer ⟨.host,0,0,0⟩ .host hostName hostLink ⟨rfl,rfl,rfl⟩)

end ChisLink.BleLinkStart
