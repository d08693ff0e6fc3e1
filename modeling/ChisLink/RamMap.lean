import ChisLink.AnsweringDevice

/-!
# The map of the server

The client of the map sends one command for each call and leaves the link at the end of
the answer. The server is any device that keeps a map under the four commands; what the
calls return is then what a map returns. A caller owns the memory that a value is stored
in, and gives its size.
-/

namespace ChisLink.RamMap

open DriverPrograms WireProtocol StorageClient StorageBoundary WireCommands AnsweringDevice
open StreamServer (clClientStatusError_neg)

/-- The channel of the map. -/
def clpChRamMap : UInt8 := 0x02

/-- Opcode of put. -/
def clpRamMapPut : UInt8 := 0x01
/-- Opcode of get. -/
def clpRamMapGet : UInt8 := 0x02
/-- Opcode of remove. -/
def clpRamMapRemove : UInt8 := 0x03
/-- Opcode of clear. -/
def clpRamMapClear : UInt8 := 0x04

/-- Capability of the map. -/
def clpCapRamMap : UInt32 := 0x00000800

/-- Longest key. -/
def clpRamMapKeyMaxBytes : ℕ := 64

/-- Longest value. -/
def clpRamMapValueMaxBytes : ℕ := 2048

variable {δ : Type}

/-- The function `validate_map`. -/
def validateMap : Prog (Link δ) ℤ :=
  inspect fun s => if s.client.caps &&& clpCapRamMap≠0 then 0 else -4

/-- The function `validate_key`. -/
def validateKey (key : List UInt8) : ℤ :=
  if key≠[] ∧ key.length≤ clpRamMapKeyMaxBytes then 0 else -1

/-- What a call makes of an answer that has only a status. -/
def statusOnly (transport : Transport δ) (reply : ℤ×ClpHeader) : Prog (Link δ) ℤ :=
  if reply.1<0 then pure reply.1
  else if reply.2.length≠0 then do
    clWireDiscardPayload transport reply.2.length
    pure (-2)
  else pure (clClientStatusError reply.2.imm)

section Calls

-- what the header on the stack holds before the call
variable (transport : Transport δ) (stale : ClpHeader)

/-- The function `cl_ram_map_put`. -/
def clRamMapPut (key value : List UInt8) : Prog (Link δ) ℤ := do
  let ret ← validateMap
  if ret<0 ∨ validateKey key<0 ∨ clpRamMapValueMaxBytes<value.length then
    pure (if ret<0 then ret else -1)
  else do
    let reply ← clWireCommandChunks transport clpChRamMap clpRamMapPut
      [storeLe32 (UInt32.ofNat key.length) 4++storeLe32 (UInt32.ofNat value.length) 4,key,value]
      stale
    statusOnly transport reply

/-- What `cl_ram_map_get` leaves: the result, the length that is stored and the memory of
the value. -/
structure GetReply where
  /-- The result. -/
  ret : ℤ
  /-- The length in `out_value_length`. -/
  length : UInt32
  /-- The memory of the value. -/
  value : ℕ → UInt8

/-- The function `cl_ram_map_get`. -/
def clRamMapGet (key : List UInt8) (value : ℕ → UInt8) (valueCapacity : UInt32) :
    Prog (Link δ) GetReply := do
  let ret ← validateMap
  if ret<0 ∨ validateKey key<0 then pure ⟨if ret<0 then ret else -1,0,value⟩
  else do
    let reply ← clWireCommandChunks transport clpChRamMap clpRamMapGet
      [storeLe32 (UInt32.ofNat key.length) 4,key] stale
    if reply.1<0 then pure ⟨reply.1,0,value⟩
    else if reply.2.imm≠clpStatusOk then
      if reply.2.length≠0 then do
        clWireDiscardPayload transport reply.2.length
        pure ⟨clClientStatusError reply.2.imm,0,value⟩
      else pure ⟨clClientStatusError reply.2.imm,0,value⟩
    else if valueCapacity< reply.2.length ∨ clpRamMapValueMaxBytes< reply.2.length.toNat then do
      clWireDiscardPayload transport reply.2.length
      pure ⟨-2,0,value⟩
    else do
      let bytes ← readPayloadWords transport reply.2.length
      pure ⟨0,reply.2.length,fun i => bytes.getD i (value i)⟩

/-- The function `cl_ram_map_remove`. -/
def clRamMapRemove (key : List UInt8) : Prog (Link δ) ℤ := do
  let ret ← validateMap
  if ret<0 ∨ validateKey key<0 then pure (if ret<0 then ret else -1)
  else do
    let reply ← clWireCommandChunks transport clpChRamMap clpRamMapRemove
      [storeLe32 (UInt32.ofNat key.length) 4,key] stale
    statusOnly transport reply

/-- The function `cl_ram_map_clear`. -/
def clRamMapClear : Prog (Link δ) ℤ := do
  let ret ← validateMap
  if ret<0 then pure ret
  else do
    let reply ← clWireCommandChunks transport clpChRamMap clpRamMapClear [] stale
    statusOnly transport reply

end Calls

/-- A call of the client. -/
inductive Call where
  /-- Put a value. -/
  | put (key value : List UInt8)
  /-- Get a value into memory of this size. -/
  | get (key : List UInt8) (value : ℕ → UInt8) (valueCapacity : UInt32)
  /-- Remove a key. -/
  | remove (key : List UInt8)
  /-- Remove all keys. -/
  | clear

/-- What a call returns. Only a get has a length and memory. -/
inductive Result where
  /-- A result alone. -/
  | code (ret : ℤ)
  /-- The result of a get. -/
  | got (reply : GetReply)

/-- Make a call. -/
def perform (transport : Transport δ) (stale : ClpHeader) : Call → Prog (Link δ) Result
  | .put key value => do
    let ret ← clRamMapPut transport stale key value
    pure (.code ret)
  | .get key value valueCapacity => do
    let reply ← clRamMapGet transport stale key value valueCapacity
    pure (.got reply)
  | .remove key => do
    let ret ← clRamMapRemove transport stale key
    pure (.code ret)
  | .clear => do
    let ret ← clRamMapClear transport stale
    pure (.code ret)

/-- Make some calls one after the other. -/
def performAll (transport : Transport δ) (stale : ClpHeader) :
    List Call → Prog (Link δ) (List Result)
  | [] => pure []
  | call::calls => do
    let result ← perform transport stale call
    let results ← performAll transport stale calls
    pure (result::results)

/-- A map from keys to values that are not too long. -/
structure Contents where
  /-- The value of a key. -/
  get : List UInt8 → Option (List UInt8)
  /-- Values are not too long. -/
  bounded : ∀ key value,get key=some value → value.length≤ clpRamMapValueMaxBytes

/-- The map with one value put. -/
def Contents.put (m : Contents) (key value : List UInt8)
    (h : value.length≤ clpRamMapValueMaxBytes) : Contents where
  get k := if k=key then some value else m.get k
  bounded k v hk := by
    split at hk
    · cases hk
      exact h
    · exact m.bounded k v hk

/-- The map with one key removed. -/
def Contents.remove (m : Contents) (key : List UInt8) : Contents where
  get k := if k=key then none else m.get k
  bounded k v hk := by
    split at hk
    · cases hk
    · exact m.bounded k v hk

/-- The map with nothing in it. -/
def Contents.empty : Contents where
  get _ := none
  bounded k v hk := by cases hk

/-- The key can be sent. -/
def ValidKey (key : List UInt8) : Prop := key≠[] ∧ key.length≤ clpRamMapKeyMaxBytes

/-- What a call on a map returns, and the map afterwards. A call that is refused leaves
everything as it was. The result of removing a key that is not there is left to the
server. -/
inductive Performs : Contents → Call → Result → Contents → Prop where
  /-- A value is put. -/
  | put {m : Contents} {key value : List UInt8} (hkey : ValidKey key)
      (hvalue : value.length≤ clpRamMapValueMaxBytes) :
      Performs m (.put key value) (.code 0) (m.put key value hvalue)
  /-- The key or the value cannot be sent. -/
  | putRefused {m : Contents} {key value : List UInt8}
      (h : ¬(ValidKey key ∧ value.length≤ clpRamMapValueMaxBytes)) :
      Performs m (.put key value) (.code (-1)) m
  /-- The value is stored in the memory, which has room for it. -/
  | got {m : Contents} {key bytes : List UInt8} {value : ℕ → UInt8} {valueCapacity : UInt32}
      (hkey : ValidKey key) (hget : m.get key=some bytes)
      (hroom : bytes.length≤ valueCapacity.toNat) :
      Performs m (.get key value valueCapacity)
        (.got ⟨0,UInt32.ofNat bytes.length,fun i => bytes.getD i (value i)⟩) m
  /-- There is no room for the value. -/
  | getNoRoom {m : Contents} {key bytes : List UInt8} {value : ℕ → UInt8}
      {valueCapacity : UInt32} (hkey : ValidKey key) (hget : m.get key=some bytes)
      (hroom : valueCapacity.toNat<bytes.length) :
      Performs m (.get key value valueCapacity) (.got ⟨-2,0,value⟩) m
  /-- There is no value. -/
  | getMissing {m : Contents} {key : List UInt8} {value : ℕ → UInt8} {valueCapacity : UInt32}
      {ret : ℤ} (hkey : ValidKey key) (hget : m.get key=none) (hret : ret<0) :
      Performs m (.get key value valueCapacity) (.got ⟨ret,0,value⟩) m
  /-- The key cannot be sent. -/
  | getRefused {m : Contents} {key : List UInt8} {value : ℕ → UInt8} {valueCapacity : UInt32}
      (hkey : ¬ValidKey key) :
      Performs m (.get key value valueCapacity) (.got ⟨-1,0,value⟩) m
  /-- A key is removed. -/
  | remove {m : Contents} {key : List UInt8} {ret : ℤ} (hkey : ValidKey key) (hret : ret≤0)
      (hthere : m.get key≠none → ret=0) :
      Performs m (.remove key) (.code ret) (m.remove key)
  /-- The key cannot be sent. -/
  | removeRefused {m : Contents} {key : List UInt8} (hkey : ¬ValidKey key) :
      Performs m (.remove key) (.code (-1)) m
  /-- All keys are removed. -/
  | clear {m : Contents} : Performs m .clear (.code 0) .empty

/-- The result of a call if the server has no map. -/
def unsupported : Call → Result
  | .get _ value _ => .got ⟨-4,0,value⟩
  | _ => .code (-4)

/-- What a sequence of calls returns, and the map afterwards. -/
inductive PerformsAll : Contents → List Call → List Result → Contents → Prop where
  /-- No calls. -/
  | nil {m : Contents} : PerformsAll m [] [] m
  /-- A call and the others. -/
  | cons {m m' m'' : Contents} {call : Call} {calls : List Call} {result : Result}
      {results : List Result} : Performs m call result m' → PerformsAll m' calls results m'' →
      PerformsAll m (call::calls) (result::results) m''

/-- A device keeps a map under the commands of the map. -/
structure Keeps (transport : Transport δ) (Holds : Contents → δ → Prop) : Prop where
  /-- A put stores the value. -/
  put : ∀ m d,Holds m d → ∀ key value,ValidKey key → ∀ h,
    Answers transport clpChRamMap clpRamMapPut
      (storeLe32 (UInt32.ofNat key.length) 4++storeLe32 (UInt32.ofNat value.length) 4++
        (key++value))
      (fun reply d' => reply.status=clpStatusOk ∧ reply.payload=[] ∧
        Holds (m.put key value h) d') d
  /-- A get answers with the value, or with an error if there is none. -/
  get : ∀ m d,Holds m d → ∀ key,ValidKey key →
    Answers transport clpChRamMap clpRamMapGet
      (storeLe32 (UInt32.ofNat key.length) 4++key)
      (fun reply d' => (match m.get key with
        | some value => reply.status=clpStatusOk ∧ reply.payload=value
        | none => reply.status≠clpStatusOk) ∧ Holds m d') d
  /-- A remove removes the key. -/
  remove : ∀ m d,Holds m d → ∀ key,ValidKey key →
    Answers transport clpChRamMap clpRamMapRemove
      (storeLe32 (UInt32.ofNat key.length) 4++key)
      (fun reply d' => (m.get key≠none → reply.status=clpStatusOk ∧ reply.payload=[]) ∧
        Holds (m.remove key) d') d
  /-- A clear removes all. -/
  clear : ∀ m d,Holds m d → Answers transport clpChRamMap clpRamMapClear []
    (fun reply d' => reply.status=clpStatusOk ∧ reply.payload=[] ∧ Holds .empty d') d

section Answers

variable {transport : Transport δ} {s t : Link δ} {d : δ} {D : Link δ → Prop}

/-- A call is over: the link is at the end of an answer, and the client is as it was. -/
structure Settled (s t : Link δ) (d : δ) : Prop where
  /-- The device. -/
  device : t.device=d
  /-- The capabilities are as before. -/
  caps : t.client.caps=s.client.caps
  /-- All words of the answers that were accepted have been exchanged. -/
  framed : ∃ events,t.log=s.log++events ∧ Framed (fun _ => True) events

theorem Settled.refl (s : Link δ) : Settled s s s.device :=
  ⟨rfl,rfl,[],(List.append_nil _).symm,.nil⟩

theorem Settled.trans {u : Link δ} {d' : δ} (h : Settled s t d) (h' : Settled t u d') :
    Settled s u d' := by
  obtain ⟨first,hfirst,hframed⟩ := h.framed
  obtain ⟨second,hsecond,hframed'⟩ := h'.framed
  refine ⟨h'.device,h'.caps.trans h.caps,first++second,?_,hframed.append hframed'⟩
  rw [hsecond,hfirst,List.append_assoc]

/-- An answer whose payload was read. -/
theorem settled_of_answered {response : ClpHeader} {pairs : List (UInt32×UInt32)}
    (h : Answered s t response) (hpairs : pairs.length=wordCount response.length) :
    Settled s (advanced t d (wordEvents pairs)) d := by
  obtain ⟨command,sent,hlog⟩ := h.log
  refine ⟨rfl,h.caps,.command command::(wordEvents sent++
    .accepted response::(wordEvents pairs++[])),?_,.answered command sent response pairs ?_ .nil⟩
  · change t.log++wordEvents pairs=_
    rw [hlog]
    simp
  · refine iff_true_intro ?_
    unfold OnBoundary
    rw [List.length_map]
    exact hpairs

/-- An answer without a payload. -/
theorem settled_of_empty {response : ClpHeader} (h : Answered s t response)
    (hlength : response.length=0) (hd : Delivers transport [] t.device d) :
    Settled s t d := by
  rw [delivers_nil] at hd
  have hpairs : ([] : List (UInt32×UInt32)).length=wordCount response.length := by
    rw [hlength]
    rfl
  have hsettled := settled_of_answered (d:=d) h hpairs
  have hsame : advanced t d (wordEvents [])=t := by
    rw [hd]
    exact advanced_nothing t
  rw [hsame] at hsettled
  exact hsettled

/-- A payload is left out. -/
theorem wp_discarded {reply : Reply} {channel opcode : UInt8} {seq : UInt16}
    {Q : Unit → Link δ → Prop} (h : Answered s t (reply.header channel opcode seq))
    (hlength : reply.payload.length≤ clpFrameMaxPayloadBytes)
    (hd : Delivers transport (payloadWords reply.payload) t.device d)
    (hQ : ∀ u,Settled s u d → Q () u) :
    wp (clWireDiscardPayload transport (reply.header channel opcode seq).length) Q D t := by
  unfold clWireDiscardPayload
  rw [header_length,wp_bind]
  refine wp_receivePayload hlength hd fun pairs hpairs => ?_
  rw [wp_pure]
  refine hQ _ (settled_of_answered h ?_)
  rw [header_length]
  exact hpairs

/-- The status of an answer becomes the result, unless there is a payload. -/
theorem wp_statusOnly {reply : Reply} {channel opcode : UInt8} {seq : UInt16}
    {Q : ℤ → Link δ → Prop} (h : Answered s t (reply.header channel opcode seq))
    (hlength : reply.payload.length≤ clpFrameMaxPayloadBytes)
    (hd : Delivers transport (payloadWords reply.payload) t.device d)
    (hQ : ∀ u,Settled s u d →
      Q (if reply.payload=[] then clClientStatusError reply.status else -2) u) :
    wp (statusOnly transport (0,reply.header channel opcode seq)) Q D t := by
  have hzero : ¬(0 : ℤ)<0 := lt_irrefl 0
  unfold statusOnly
  dsimp only
  rw [if_neg hzero]
  by_cases hnil : reply.payload=[]
  · have hnone : (reply.header channel opcode seq).length=0 := by
      rw [header_length]
      exact (payload_nil hlength).mpr hnil
    rw [if_pos hnil] at hQ
    rw [hnil] at hd
    rw [if_neg (not_not.mpr hnone),wp_pure,header_imm]
    exact hQ t (settled_of_empty h hnone hd)
  · have hsome : (reply.header channel opcode seq).length≠0 := by
      rw [header_length]
      exact mt (payload_nil hlength).mp hnil
    rw [if_neg hnil] at hQ
    rw [if_pos hsome,wp_bind]
    refine wp_discarded h hlength hd fun u hu => ?_
    rw [wp_pure]
    exact hQ u hu

end Answers

section Refinement

variable {transport : Transport δ} {Holds : Contents → δ → Prop} {stale : ClpHeader}
  {s : Link δ} {m : Contents} {D : Link δ → Prop}

/-- The server is known to have a map. -/
def Supported (s : Link δ) : Prop := s.client.caps &&& clpCapRamMap≠0

theorem validateKey_valid {key : List UInt8} (h : ValidKey key) : validateKey key=0 :=
  if_pos h

theorem validateKey_refused {key : List UInt8} (h : ¬ValidKey key) : validateKey key=-1 :=
  if_neg h

/-- The map of the server is checked first. -/
theorem wp_validated {α : Type} {f : ℤ → Prog (Link δ) α} {Q : α → Link δ → Prop}
    (h : Supported s) (hf : wp (f 0) Q D s) : wp (validateMap >>= f) Q D s := by
  have hthere : s.client.caps &&& clpCapRamMap≠0 := h
  unfold validateMap
  rw [wp_bind,wp_inspect,if_pos hthere]
  exact hf

/-- A put is performed. -/
theorem wp_clRamMapPut (h : Keeps transport Holds) (hs : Supported s) (hm : Holds m s.device)
    (key value : List UInt8) {Q : ℤ → Link δ → Prop}
    (hQ : ∀ ret m' t,Performs m (.put key value) (.code ret) m' → Settled s t t.device →
      Holds m' t.device → Q ret t) :
    wp (clRamMapPut transport stale key value) Q D s := by
  have hneg : (-1 : ℤ)<0 := by decide
  have hzero : ¬(0 : ℤ)<0 := by decide
  unfold clRamMapPut
  apply wp_validated hs
  by_cases hvalid : ValidKey key ∧ value.length≤ clpRamMapValueMaxBytes
  · obtain ⟨hkey,hvalue⟩ := hvalid
    have hgo : ¬((0 : ℤ)<0 ∨ validateKey key<0 ∨ clpRamMapValueMaxBytes<value.length) := by
      rw [validateKey_valid hkey]
      rintro (hbad | hbad | hlong)
      · exact hzero hbad
      · exact hzero hbad
      · omega
    have hchunks : [storeLe32 (UInt32.ofNat key.length) 4++
        storeLe32 (UInt32.ofNat value.length) 4,key,value].flatten=
        storeLe32 (UInt32.ofNat key.length) 4++storeLe32 (UInt32.ofNat value.length) 4++
          (key++value) := by simp
    have hanswers := h.put m s.device hm key value hkey hvalue
    have hlength : [storeLe32 (UInt32.ofNat key.length) 4++
        storeLe32 (UInt32.ofNat value.length) 4,key,value].flatten.length≤
        clpFrameMaxPayloadBytes := by
      have hfour : ∀ word,(storeLe32 word 4).length=4 := fun _ => rfl
      have hshort := hkey.2
      unfold clpRamMapKeyMaxBytes at hshort
      unfold clpRamMapValueMaxBytes at hvalue
      unfold clpFrameMaxPayloadBytes
      rw [hchunks,List.length_append,List.length_append,List.length_append,hfour,hfour]
      omega
    rw [← hchunks] at hanswers
    rw [if_neg hgo,wp_bind]
    refine wp_answered (wirePayloadLength_of_le hlength) hanswers ?_
    rintro seq reply t d hanswered hframe hd ⟨hstatus,hpayload,hholds⟩
    refine wp_statusOnly hanswered hframe hd fun u hu => ?_
    rw [if_pos hpayload,hstatus]
    rw [← hu.device] at hholds
    exact hQ 0 _ u (.put hkey hvalue) ⟨rfl,hu.caps,hu.framed⟩ hholds
  · have hstop : (0 : ℤ)<0 ∨ validateKey key<0 ∨ clpRamMapValueMaxBytes<value.length := by
      by_cases hkey : ValidKey key
      · exact Or.inr (Or.inr (not_le.mp fun hvalue => hvalid ⟨hkey,hvalue⟩))
      · rw [validateKey_refused hkey]
        exact Or.inr (Or.inl hneg)
    rw [if_pos hstop,wp_pure,if_neg hzero]
    exact hQ (-1) m s (.putRefused hvalid) (Settled.refl s) hm

/-- Where the key is checked and is the only part of the request. -/
theorem keyChunks_length {key : List UInt8} (hkey : ValidKey key) :
    [storeLe32 (UInt32.ofNat key.length) 4,key].flatten.length≤ clpFrameMaxPayloadBytes := by
  have hfour : ∀ word,(storeLe32 word 4).length=4 := fun _ => rfl
  have hshort := hkey.2
  have hchunks : [storeLe32 (UInt32.ofNat key.length) 4,key].flatten=
      storeLe32 (UInt32.ofNat key.length) 4++key := by simp
  unfold clpRamMapKeyMaxBytes at hshort
  unfold clpFrameMaxPayloadBytes
  rw [hchunks,List.length_append,hfour]
  omega

/-- A remove is performed. -/
theorem wp_clRamMapRemove (h : Keeps transport Holds) (hs : Supported s)
    (hm : Holds m s.device) (key : List UInt8) {Q : ℤ → Link δ → Prop}
    (hQ : ∀ ret m' t,Performs m (.remove key) (.code ret) m' → Settled s t t.device →
      Holds m' t.device → Q ret t) :
    wp (clRamMapRemove transport stale key) Q D s := by
  have hneg : (-1 : ℤ)<0 := by decide
  have hzero : ¬(0 : ℤ)<0 := by decide
  unfold clRamMapRemove
  apply wp_validated hs
  by_cases hkey : ValidKey key
  · have hgo : ¬((0 : ℤ)<0 ∨ validateKey key<0) := by
      rw [validateKey_valid hkey,or_self]
      exact hzero
    have hchunks : [storeLe32 (UInt32.ofNat key.length) 4,key].flatten=
        storeLe32 (UInt32.ofNat key.length) 4++key := by simp
    have hanswers := h.remove m s.device hm key hkey
    rw [← hchunks] at hanswers
    rw [if_neg hgo,wp_bind]
    refine wp_answered (wirePayloadLength_of_le (keyChunks_length hkey)) hanswers ?_
    rintro seq reply t d hanswered hframe hd ⟨hthere,hholds⟩
    refine wp_statusOnly hanswered hframe hd fun u hu => ?_
    rw [← hu.device] at hholds
    refine hQ _ _ u (.remove hkey ?_ fun hsome => ?_) ⟨rfl,hu.caps,hu.framed⟩ hholds
    · split
      · by_cases hok : reply.status=clpStatusOk
        · rw [hok]
          exact Int.le_refl 0
        · exact (clClientStatusError_neg hok).le
      · decide
    · obtain ⟨hstatus,hpayload⟩ := hthere hsome
      rw [if_pos hpayload,hstatus]
      rfl
  · have hstop : (0 : ℤ)<0 ∨ validateKey key<0 := by
      rw [validateKey_refused hkey]
      exact Or.inr hneg
    rw [if_pos hstop,wp_pure,if_neg hzero]
    exact hQ (-1) m s (.removeRefused hkey) (Settled.refl s) hm

/-- A clear is performed. -/
theorem wp_clRamMapClear (h : Keeps transport Holds) (hs : Supported s)
    (hm : Holds m s.device) {Q : ℤ → Link δ → Prop}
    (hQ : ∀ ret m' t,Performs m .clear (.code ret) m' → Settled s t t.device →
      Holds m' t.device → Q ret t) :
    wp (clRamMapClear transport stale) Q D s := by
  have hzero : ¬(0 : ℤ)<0 := by decide
  unfold clRamMapClear
  apply wp_validated hs
  have hanswers : Answers transport clpChRamMap clpRamMapClear ([] : List (List UInt8)).flatten
      _ s.device := h.clear m s.device hm
  rw [if_neg hzero,wp_bind]
  refine wp_answered (wirePayloadLength_of_le (Nat.zero_le _)) hanswers ?_
  rintro seq reply t d hanswered hframe hd ⟨hstatus,hpayload,hholds⟩
  refine wp_statusOnly hanswered hframe hd fun u hu => ?_
  rw [if_pos hpayload,hstatus]
  rw [← hu.device] at hholds
  exact hQ 0 _ u .clear ⟨rfl,hu.caps,hu.framed⟩ hholds

/-- A get is performed. -/
theorem wp_clRamMapGet (h : Keeps transport Holds) (hs : Supported s)
    (hm : Holds m s.device) (key : List UInt8) (value : ℕ → UInt8) (valueCapacity : UInt32)
    {Q : GetReply → Link δ → Prop}
    (hQ : ∀ reply m' t,Performs m (.get key value valueCapacity) (.got reply) m' →
      Settled s t t.device → Holds m' t.device → Q reply t) :
    wp (clRamMapGet transport stale key value valueCapacity) Q D s := by
  have hneg : (-1 : ℤ)<0 := by decide
  have hzero : ¬(0 : ℤ)<0 := by decide
  unfold clRamMapGet
  apply wp_validated hs
  by_cases hkey : ValidKey key
  · have hgo : ¬((0 : ℤ)<0 ∨ validateKey key<0) := by
      rw [validateKey_valid hkey,or_self]
      exact hzero
    have hchunks : [storeLe32 (UInt32.ofNat key.length) 4,key].flatten=
        storeLe32 (UInt32.ofNat key.length) 4++key := by simp
    have hanswers := h.get m s.device hm key hkey
    rw [← hchunks] at hanswers
    rw [if_neg hgo,wp_bind]
    refine wp_answered (wirePayloadLength_of_le (keyChunks_length hkey)) hanswers ?_
    rintro seq reply t d hanswered hframe hd ⟨hreply,hholds⟩
    have hmax : clpFrameMaxPayloadBytes=32768 := rfl
    have hnat : (UInt32.ofNat reply.payload.length).toNat=reply.payload.length :=
      UInt32.toNat_ofNat_of_lt' (by unfold UInt32.size; omega)
    dsimp only
    rw [if_neg hzero,header_imm]
    cases hget : m.get key with
    | none =>
      rw [hget] at hreply
      have hbad : reply.status≠clpStatusOk := hreply
      have hret := clClientStatusError_neg hbad
      rw [if_pos hbad]
      by_cases hlength : (reply.header clpChRamMap clpRamMapGet seq).length=0
      · have hnil : reply.payload=[] := by
          rw [header_length] at hlength
          exact (payload_nil hframe).mp hlength
        rw [hnil] at hd
        have hu := settled_of_empty hanswered hlength hd
        rw [← hu.device] at hholds
        rw [if_neg (not_not.mpr hlength),wp_pure]
        exact hQ _ m t (.getMissing hkey hget hret) ⟨rfl,hu.caps,hu.framed⟩ hholds
      · rw [if_pos hlength,wp_bind]
        refine wp_discarded hanswered hframe hd fun u hu => ?_
        rw [wp_pure]
        rw [← hu.device] at hholds
        exact hQ _ m u (.getMissing hkey hget hret) ⟨rfl,hu.caps,hu.framed⟩ hholds
    | some bytes =>
      rw [hget] at hreply
      obtain ⟨hstatus,rfl⟩ : reply.status=clpStatusOk ∧ reply.payload=bytes := hreply
      have hbounded := m.bounded key _ hget
      rw [if_neg (not_not.mpr hstatus)]
      by_cases hroom : reply.payload.length≤ valueCapacity.toNat
      · have hfits : ¬(valueCapacity<(reply.header clpChRamMap clpRamMapGet seq).length ∨
            clpRamMapValueMaxBytes<
              (reply.header clpChRamMap clpRamMapGet seq).length.toNat) := by
          rw [header_length,UInt32.lt_iff_toNat_lt,hnat]
          omega
        rw [if_neg hfits,header_length,wp_bind]
        refine wp_readPayloadWords hframe hd fun pairs hpairs => ?_
        rw [wp_pure]
        rw [← header_length reply clpChRamMap clpRamMapGet seq] at hpairs
        exact hQ _ m _ (.got hkey hget hroom) (settled_of_answered hanswered hpairs) hholds
      · have hlong : valueCapacity<(reply.header clpChRamMap clpRamMapGet seq).length ∨
            clpRamMapValueMaxBytes<
              (reply.header clpChRamMap clpRamMapGet seq).length.toNat := by
          rw [header_length,UInt32.lt_iff_toNat_lt,hnat]
          exact Or.inl (not_le.mp hroom)
        rw [if_pos hlong,wp_bind]
        refine wp_discarded hanswered hframe hd fun u hu => ?_
        rw [wp_pure]
        rw [← hu.device] at hholds
        exact hQ _ m u (.getNoRoom hkey hget (not_le.mp hroom)) ⟨rfl,hu.caps,hu.framed⟩ hholds
  · have hstop : (0 : ℤ)<0 ∨ validateKey key<0 := by
      rw [validateKey_refused hkey]
      exact Or.inr hneg
    rw [if_pos hstop,wp_pure,if_neg hzero]
    exact hQ _ m s (.getRefused hkey) (Settled.refl s) hm

/-- A call is performed. -/
theorem wp_perform (h : Keeps transport Holds) (hs : Supported s) (hm : Holds m s.device)
    (call : Call) {Q : Result → Link δ → Prop}
    (hQ : ∀ result m' t,Performs m call result m' → Settled s t t.device →
      Holds m' t.device → Q result t) :
    wp (perform transport stale call) Q D s := by
  unfold perform
  cases call with
  | put key value =>
    dsimp only
    rw [wp_bind]
    exact wp_clRamMapPut h hs hm key value fun ret m' t hp ht hm' => hQ _ m' t hp ht hm'
  | get key value valueCapacity =>
    dsimp only
    rw [wp_bind]
    exact wp_clRamMapGet h hs hm key value valueCapacity fun reply m' t hp ht hm' =>
      hQ _ m' t hp ht hm'
  | remove key =>
    dsimp only
    rw [wp_bind]
    exact wp_clRamMapRemove h hs hm key fun ret m' t hp ht hm' => hQ _ m' t hp ht hm'
  | clear =>
    dsimp only
    rw [wp_bind]
    exact wp_clRamMapClear h hs hm fun ret m' t hp ht hm' => hQ _ m' t hp ht hm'

/-- So are all of them. -/
theorem wp_performAll (h : Keeps transport Holds) (hs : Supported s) (hm : Holds m s.device)
    (calls : List Call) :
    wp (performAll transport stale calls)
      (fun results t => Settled s t t.device ∧
        ∃ m',PerformsAll m calls results m' ∧ Holds m' t.device) (fun _ => False) s := by
  induction calls generalizing m s with
  | nil => exact ⟨Settled.refl s,m,.nil,hm⟩
  | cons call calls ih =>
    unfold performAll
    rw [wp_bind]
    refine wp_perform h hs hm call fun result m' t hperforms ht hm' => ?_
    have hst : Supported t := by
      unfold Supported
      rw [ht.caps]
      exact hs
    refine wp_seq (ih hst hm') ?_
    rintro results u ⟨hu,m'',hrest,hm''⟩
    rw [wp_pure]
    exact ⟨ht.trans hu,m'',.cons hperforms hrest,hm''⟩

/-- Without a map of the server nothing is sent. -/
theorem perform_unsupported (hs : ¬Supported s) (call : Call) :
    perform transport stale call s=(some (unsupported call),s) := by
  have hcode : (validateMap : Prog (Link δ) ℤ) s=(some (-4),s) := by
    have hnone : ¬s.client.caps &&& clpCapRamMap≠0 := hs
    unfold validateMap inspect
    dsimp only
    rw [if_neg hnone]
  have hneg : (-4 : ℤ)<0 := by decide
  cases call with
  | put key value =>
    have hrun : clRamMapPut transport stale key value s=(some (-4),s) := by
      unfold clRamMapPut
      rw [bind_run hcode,if_pos (Or.inl hneg),if_pos hneg]
      rfl
    exact bind_run hrun
  | get key value valueCapacity =>
    have hrun : clRamMapGet transport stale key value valueCapacity s=
        (some ⟨-4,0,value⟩,s) := by
      unfold clRamMapGet
      rw [bind_run hcode,if_pos (Or.inl hneg),if_pos hneg]
      rfl
    exact bind_run hrun
  | remove key =>
    have hrun : clRamMapRemove transport stale key s=(some (-4),s) := by
      unfold clRamMapRemove
      rw [bind_run hcode,if_pos (Or.inl hneg),if_pos hneg]
      rfl
    exact bind_run hrun
  | clear =>
    have hrun : clRamMapClear transport stale s=(some (-4),s) := by
      unfold clRamMapClear
      rw [bind_run hcode,if_pos hneg]
      rfl
    exact bind_run hrun

theorem performAll_unsupported (hs : ¬Supported s) (calls : List Call) :
    performAll transport stale calls s=(some (calls.map unsupported),s) := by
  induction calls with
  | nil => rfl
  | cons call calls ih =>
    unfold performAll
    rw [bind_run (perform_unsupported hs call),bind_run ih]
    rfl

/-- A get that fails stores the length zero and leaves the memory as it was; none writes
behind the capacity. -/
def Within : Call → Result → Prop
  | .get _ value valueCapacity, .got reply =>
    (reply.ret≠0 → reply.length=0 ∧ reply.value=value) ∧
    (∀ i,valueCapacity.toNat≤ i → reply.value i=value i) ∧
    reply.length.toNat≤valueCapacity.toNat
  | .get .., .code _ => False
  | _, _ => True

theorem Performs.within {call : Call} {result : Result} {m' : Contents}
    (h : Performs m call result m') : Within call result := by
  have hzero : ∀ capacity : UInt32,(0 : UInt32).toNat≤ capacity.toNat := fun _ =>
    Nat.zero_le _
  cases h with
  | @got key bytes value valueCapacity hkey hget hroom =>
    have hbounded := m.bounded key bytes hget
    unfold clpRamMapValueMaxBytes at hbounded
    have hnat : (UInt32.ofNat bytes.length).toNat=bytes.length :=
      UInt32.toNat_ofNat_of_lt' (by unfold UInt32.size; omega)
    refine ⟨fun hret => absurd rfl hret,fun i hi => ?_,?_⟩
    · exact List.getD_eq_default _ _ (hroom.trans hi)
    · rw [hnat]
      exact hroom
  | getNoRoom hkey hget hroom => exact ⟨fun _ => ⟨rfl,rfl⟩,fun _ _ => rfl,hzero _⟩
  | getMissing hkey hget hret => exact ⟨fun _ => ⟨rfl,rfl⟩,fun _ _ => rfl,hzero _⟩
  | getRefused hkey => exact ⟨fun _ => ⟨rfl,rfl⟩,fun _ _ => rfl,hzero _⟩
  | put hkey hvalue => trivial
  | putRefused h => trivial
  | remove hkey hret hthere => trivial
  | removeRefused hkey => trivial
  | clear => trivial

theorem PerformsAll.within {calls : List Call} {results : List Result} {m' : Contents}
    (h : PerformsAll m calls results m') : List.Forall₂ Within calls results := by
  induction h with
  | nil => exact .nil
  | cons hfirst _ ih => exact .cons hfirst.within ih

theorem within_unsupported (calls : List Call) :
    List.Forall₂ Within calls (calls.map unsupported) := by
  induction calls with
  | nil => exact .nil
  | cons call calls ih =>
    refine .cons ?_ ih
    cases call with
    | get key value valueCapacity =>
      exact ⟨fun _ => ⟨rfl,rfl⟩,fun _ _ => rfl,Nat.zero_le _⟩
    | put key value => trivial
    | remove key => trivial
    | clear => trivial

/-- Every sequence of calls returns what a map returns. A get stores nothing behind its
capacity and the length zero if it fails. All words of the answers that were accepted have
been exchanged. -/
theorem map_refined (h : Keeps transport Holds) (hm : Holds m s.device)
    (calls : List Call) :
    ∃ results t,performAll transport stale calls s=(some results,t) ∧
      (Supported s → ∃ m',PerformsAll m calls results m' ∧ Holds m' t.device) ∧
      (¬Supported s → results=calls.map unsupported ∧ t=s) ∧
      List.Forall₂ Within calls results ∧
      ∃ events,t.log=s.log++events ∧ ∀ answer∈exchanged events,OnBoundary answer := by
  by_cases hs : Supported s
  · obtain ⟨results,t,hrun,ht,m',hperforms,hm'⟩ := wp_total (wp_performAll h hs hm calls)
    obtain ⟨events,hlog,hframed⟩ := ht.framed
    exact ⟨results,t,hrun,fun _ => ⟨m',hperforms,hm'⟩,fun hnot => absurd hs hnot,
      hperforms.within,events,hlog,
      fun answer hanswer => (hframed.exchanged answer hanswer).mpr trivial⟩
  · exact ⟨_,s,performAll_unsupported hs calls,fun hyes => absurd hyes hs,
      fun _ => ⟨rfl,rfl⟩,within_unsupported calls,[],(List.append_nil _).symm,
      fun answer hanswer => absurd hanswer List.not_mem_nil⟩

end Refinement

section Server

/-- The length in the first word of a request. -/
def wireLength (payload : List UInt8) : ℕ := (loadLe32 payload).toNat

/-- A server with a map. -/
def serveMap (header : ClpHeader) (payload : List UInt8) (m : Contents) : Reply×Contents :=
  if header.opcode=clpRamMapPut then
    let key := (payload.drop 8).take (wireLength payload)
    let value := (payload.drop (8+wireLength payload)).take (wireLength (payload.drop 4))
    if h : value.length≤ clpRamMapValueMaxBytes then (.ack clpStatusOk,m.put key value h)
    else (.ack clpStatusBadPacket,m)
  else if header.opcode=clpRamMapGet then
    match m.get ((payload.drop 4).take (wireLength payload)) with
    | some value => (.response clpStatusOk 0 0 value,m)
    | none => (.ack clpStatusNotFound,m)
  else if header.opcode=clpRamMapRemove then
    (.ack clpStatusOk,m.remove ((payload.drop 4).take (wireLength payload)))
  else (.ack clpStatusOk,.empty)

theorem toNat_ofNat_length {bytes : List UInt8} (h : bytes.length≤ clpFrameMaxPayloadBytes) :
    (UInt32.ofNat bytes.length).toNat=bytes.length :=
  UInt32.toNat_ofNat_of_lt' (by unfold clpFrameMaxPayloadBytes at h; unfold UInt32.size; omega)

/-- A request with a key. -/
theorem wireLength_key {key rest : List UInt8} (h : key.length≤ clpFrameMaxPayloadBytes) :
    wireLength (storeLe32 (UInt32.ofNat key.length) 4++rest)=key.length := by
  unfold wireLength
  rw [loadLe32_stored,toNat_ofNat_length h]

theorem request_key {key : List UInt8} (h : key.length≤ clpFrameMaxPayloadBytes) :
    ((storeLe32 (UInt32.ofNat key.length) 4++key).drop 4).take
      (wireLength (storeLe32 (UInt32.ofNat key.length) 4++key))=key := by
  have hdrop : (storeLe32 (UInt32.ofNat key.length) 4++key).drop 4=key := rfl
  rw [wireLength_key h,hdrop,List.take_length]

/-- It keeps the map. -/
theorem serveMap_keeps : Keeps (respond serveMap) (fun m d => d=⟨[],[],m⟩) := by
  have hfour : ∀ word,(storeLe32 word 4).length=4 := fun _ => rfl
  have hkeyMax : clpRamMapKeyMaxBytes=64 := rfl
  have hvalueMax : clpRamMapValueMaxBytes=2048 := rfl
  have hframe : clpFrameMaxPayloadBytes=32768 := rfl
  refine ⟨?_,?_,?_,?_⟩
  · rintro m d rfl key value ⟨-,hkey⟩ h
    obtain ⟨payload,hpayload⟩ : ∃ payload,payload=storeLe32 (UInt32.ofNat key.length) 4++
        storeLe32 (UInt32.ofNat value.length) 4++(key++value) := ⟨_,rfl⟩
    have hlength : payload.length≤ clpFrameMaxPayloadBytes := by
      rw [hpayload,List.length_append,List.length_append,List.length_append,hfour,hfour]
      omega
    have hkeyLength : wireLength payload=key.length := by
      rw [hpayload,List.append_assoc]
      exact wireLength_key (by omega)
    have hvalueLength : wireLength (payload.drop 4)=value.length := by
      rw [hpayload,List.append_assoc]
      exact wireLength_key (by omega)
    have hdrop : payload.drop 8=key++value := by
      rw [hpayload]
      rfl
    have hserved : ∀ header : ClpHeader,header.opcode=clpRamMapPut →
        serveMap header payload m=(.ack clpStatusOk,m.put key value h) := by
      intro header hopcode
      have htakeKey : (payload.drop 8).take (wireLength payload)=key := by
        rw [hkeyLength,hdrop]
        exact List.take_left' rfl
      have htakeValue : (payload.drop (8+wireLength payload)).take
          (wireLength (payload.drop 4))=value := by
        rw [hkeyLength,hvalueLength,← List.drop_drop,hdrop,List.drop_left' rfl,
          List.take_length]
      unfold serveMap
      rw [if_pos hopcode]
      simp only [htakeKey,htakeValue,h,dite_true]
    rw [← hpayload]
    refine respond_answers serveMap hlength fun seq => ?_
    rw [hserved _ rfl]
    exact ⟨Nat.zero_le _,rfl,rfl,rfl⟩
  · rintro m d rfl key ⟨-,hkey⟩
    have hshort : key.length≤ clpFrameMaxPayloadBytes := by omega
    have hrequest := request_key hshort
    have hlength : (storeLe32 (UInt32.ofNat key.length) 4++key).length≤
        clpFrameMaxPayloadBytes := by
      rw [List.length_append,hfour]
      omega
    refine respond_answers serveMap hlength fun seq => ?_
    have hput : ¬clpRamMapGet=clpRamMapPut := by decide
    have hsame : clpRamMapGet=clpRamMapGet := rfl
    unfold serveMap commandHeader
    dsimp only
    rw [if_neg hput,if_pos hsame,hrequest]
    cases hget : m.get key with
    | none => exact ⟨Nat.zero_le _,(by decide : clpStatusNotFound≠clpStatusOk),rfl⟩
    | some value =>
      have hbounded := m.bounded key value hget
      refine ⟨?_,⟨rfl,rfl⟩,rfl⟩
      change value.length≤ clpFrameMaxPayloadBytes
      omega
  · rintro m d rfl key ⟨-,hkey⟩
    have hshort : key.length≤ clpFrameMaxPayloadBytes := by omega
    have hrequest := request_key hshort
    have hlength : (storeLe32 (UInt32.ofNat key.length) 4++key).length≤
        clpFrameMaxPayloadBytes := by
      rw [List.length_append,hfour]
      omega
    refine respond_answers serveMap hlength fun seq => ?_
    have hput : ¬clpRamMapRemove=clpRamMapPut := by decide
    have hget : ¬clpRamMapRemove=clpRamMapGet := by decide
    have hsame : clpRamMapRemove=clpRamMapRemove := rfl
    unfold serveMap commandHeader
    dsimp only
    rw [if_neg hput,if_neg hget,if_pos hsame,hrequest]
    exact ⟨Nat.zero_le _,fun _ => ⟨rfl,rfl⟩,rfl⟩
  · rintro m d rfl
    exact respond_answers serveMap (Nat.zero_le _) fun seq => ⟨Nat.zero_le _,rfl,rfl,rfl⟩

/-- A client of it, with nothing in the map. -/
def emptyMapLink : Link (Responder Contents) :=
  ⟨⟨[],[],.empty⟩,⟨.idle,0,clpStatusOk,clpCapRamMap⟩,[]⟩

theorem map_refined_put_get :
    ∃ results t,performAll (respond serveMap) ⟨0,0,0,0,0,0,0,0⟩
        [.put [107] [1,2,3],.get [107] (fun _ => 0) 8,.get [107] (fun _ => 0) 2,.remove [107],
          .get [107] (fun _ => 0) 8] emptyMapLink=(some results,t) ∧
      (Supported emptyMapLink → ∃ m',PerformsAll .empty
        [.put [107] [1,2,3],.get [107] (fun _ => 0) 8,.get [107] (fun _ => 0) 2,.remove [107],
          .get [107] (fun _ => 0) 8] results m' ∧ t.device=⟨[],[],m'⟩) ∧
      (¬Supported emptyMapLink → results=List.map unsupported
        [.put [107] [1,2,3],.get [107] (fun _ => 0) 8,.get [107] (fun _ => 0) 2,.remove [107],
          .get [107] (fun _ => 0) 8] ∧ t=emptyMapLink) ∧
      List.Forall₂ Within
        [.put [107] [1,2,3],.get [107] (fun _ => 0) 8,.get [107] (fun _ => 0) 2,.remove [107],
          .get [107] (fun _ => 0) 8] results ∧
      ∃ events,t.log=emptyMapLink.log++events ∧
        ∀ answer∈exchanged events,OnBoundary answer :=
  map_refined serveMap_keeps rfl _

end Server

end ChisLink.RamMap
