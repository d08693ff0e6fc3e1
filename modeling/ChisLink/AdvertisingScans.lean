import ChisLink.BleClient

/-!
# Scans of advertising data

Advertising data is a sequence of fields, each with its length in front, its type and its
content. Two scans walk over the data by offsets, one looks for a UUID and one for a name.
Both see the fields up to the first that is empty or cut off, and read nothing outside of
the data.
-/

namespace ChisLink.AdvertisingScans

open BleClient

section Fields

/-- A field. -/
structure AdvField where
  /-- The type. -/
  type : UInt8
  /-- The content. -/
  content : List UInt8
  /-- The length byte can count the type and the content. -/
  length_lt : content.length<255

/-- The bytes of a field. -/
def AdvField.bytes (field : AdvField) : List UInt8 :=
  UInt8.ofNat (field.content.length+1)::field.type::field.content

/-- What the fields end with. -/
inductive FieldsEnd where
  /-- The end of the data. -/
  | ended
  /-- A field without a type. -/
  | zero
  /-- A field that is longer than the rest of the data. -/
  | truncated
deriving DecidableEq

/-- The data that follows the fields. -/
def EndsAs : FieldsEnd → List UInt8 → Prop
  | .ended,rest => rest=[]
  | .zero,rest => ∃ tail,rest=0::tail
  | .truncated,rest => ∃ fieldLen tail,rest=fieldLen::tail ∧ fieldLen≠0 ∧
    tail.length<fieldLen.toNat

/-- The data is a sequence of fields and what they end with. -/
def HasFields (data : List UInt8) (fields : List AdvField) (stop : FieldsEnd) : Prop :=
  ∃ rest,data=fields.flatMap AdvField.bytes++rest ∧ EndsAs stop rest

variable {data rest : List UInt8} {fields : List AdvField} {field : AdvField} {stop : FieldsEnd}

@[simp] theorem toNat_lengthByte (field : AdvField) :
    (UInt8.ofNat (field.content.length+1)).toNat=field.content.length+1 :=
  UInt8.toNat_ofNat_of_lt' (Nat.succ_lt_succ field.length_lt)

@[simp] theorem length_bytes (field : AdvField) :
    field.bytes.length=field.content.length+2 := rfl

theorem lengthByte_ne_zero (field : AdvField) : UInt8.ofNat (field.content.length+1)≠0 := by
  intro h
  have hnat := congrArg UInt8.toNat h
  rw [toNat_lengthByte] at hnat
  exact Nat.succ_ne_zero _ hnat

/-- All data has fields. -/
theorem exists_fields (data : List UInt8) : ∃ fields stop,HasFields data fields stop := by
  induction hlength : data.length using Nat.strong_induction_on generalizing data with
  | h n ih =>
    cases data with
    | nil => exact ⟨[],.ended,[],rfl,rfl⟩
    | cons fieldLen tail =>
      by_cases hzero : fieldLen=0
      · exact ⟨[],.zero,_,rfl,tail,by rw [hzero]⟩
      by_cases hshort : tail.length<fieldLen.toNat
      · exact ⟨[],.truncated,_,rfl,fieldLen,tail,rfl,hzero,hshort⟩
      have hpos : 0<fieldLen.toNat := Nat.pos_of_ne_zero fun h => hzero (UInt8.toNat_inj.mp h)
      cases tail with
      | nil => exact absurd hpos hshort
      | cons type tail =>
        rw [List.length_cons] at hshort hlength
        rw [List.length_cons] at hlength
        have hbyte := fieldLen.toNat_lt
        have hcontent : (tail.take (fieldLen.toNat-1)).length=fieldLen.toNat-1 := by
          rw [List.length_take]
          omega
        obtain ⟨fields,stop,rest,hrest,hend⟩ :=
          ih (tail.drop (fieldLen.toNat-1)).length (by rw [List.length_drop]; omega) _ rfl
        let field : AdvField := ⟨type,tail.take (fieldLen.toNat-1),by omega⟩
        refine ⟨field::fields,stop,rest,?_,hend⟩
        have hlen : UInt8.ofNat (field.content.length+1)=fieldLen := by
          rw [← UInt8.toNat_inj,toNat_lengthByte]
          change (tail.take (fieldLen.toNat-1)).length+1=_
          omega
        rw [List.flatMap_cons,List.append_assoc,← hrest,AdvField.bytes,hlen]
        exact congrArg (fieldLen::type::·) (List.take_append_drop _ tail).symm

/-- Data that begins with a field does not end there. -/
theorem not_endsAs_bytes (stop : FieldsEnd) : ¬EndsAs stop (field.bytes++rest) := by
  cases stop with
  | ended => exact fun h => List.cons_ne_nil _ _ h
  | zero => exact fun ⟨tail,h⟩ => lengthByte_ne_zero field (List.cons.inj h).1
  | truncated =>
    rintro ⟨fieldLen,tail,h,-,hshort⟩
    obtain ⟨hlen,htail⟩ := List.cons.inj h
    rw [← hlen,← htail,toNat_lengthByte,List.append_eq,List.length_append,List.length_cons] at hshort
    omega

/-- What the data ends with is told by it. -/
theorem endsAs_unique {stop' : FieldsEnd} (h : EndsAs stop rest) (h' : EndsAs stop' rest) :
    stop=stop' := by
  cases stop <;> cases stop' <;> simp only [EndsAs] at h h' <;> grind

/-- The fields and their end are told by the data. -/
theorem hasFields_unique {fields' : List AdvField} {stop' : FieldsEnd}
    (h : HasFields data fields stop) (h' : HasFields data fields' stop') :
    fields=fields' ∧ stop=stop' := by
  obtain ⟨rest,hdata,hend⟩ := h
  obtain ⟨rest',hdata',hend'⟩ := h'
  induction fields generalizing data fields' with
  | nil =>
    cases fields' with
    | nil =>
      rw [hdata] at hdata'
      have hsame : rest=rest' := hdata'
      rw [← hsame] at hend'
      exact ⟨rfl,endsAs_unique hend hend'⟩
    | cons field' fields' =>
      rw [hdata,List.flatMap_cons,List.append_assoc] at hdata'
      have hsame : rest=_ := hdata'
      rw [hsame] at hend
      exact absurd hend (not_endsAs_bytes stop)
  | cons field fields ih =>
    rw [List.flatMap_cons,List.append_assoc] at hdata
    cases fields' with
    | nil =>
      rw [hdata] at hdata'
      have hsame : _=rest' := hdata'
      rw [← hsame] at hend'
      exact absurd hend' (not_endsAs_bytes stop')
    | cons field' fields' =>
      rw [hdata,List.flatMap_cons,List.append_assoc] at hdata'
      obtain ⟨hlen,htail⟩ := List.cons.inj hdata'
      obtain ⟨htype,hbytes⟩ := List.cons.inj htail
      have hlength : field.content.length=field'.content.length := by
        have hnat := congrArg UInt8.toNat hlen
        rw [toNat_lengthByte,toNat_lengthByte] at hnat
        omega
      obtain ⟨hcontent,hrest⟩ := List.append_inj hbytes hlength
      obtain ⟨hfields,hstop⟩ := ih rfl hrest
      obtain ⟨type,content,hlt⟩ := field
      obtain ⟨type',content',hlt'⟩ := field'
      cases htype
      cases hcontent
      rw [hfields]
      exact ⟨rfl,hstop⟩

end Fields

section Reading

/-- Read successive bytes of the data. A byte outside of it has no value. -/
def readBytes (data : List UInt8) (pos : ℕ) : ℕ → Option (List UInt8)
  | 0 => some []
  | n+1 => do
    let byte ← data[pos]?
    let bytes ← readBytes data (pos+1) n
    pure (byte::bytes)

variable {data before piece after : List UInt8} {b : UInt8}

/-- A byte that is there. -/
theorem read_byte (h : data=before++b::after) : data[before.length]?=some b := by
  rw [h,List.getElem?_append_right (le_refl _),Nat.sub_self]
  rfl

/-- Bytes that are there. -/
theorem readBytes_inside (h : data=before++piece++after) :
    readBytes data before.length piece.length=some piece := by
  induction piece generalizing before with
  | nil => rfl
  | cons b piece ih =>
    have hnext := @ih (before++[b]) (by simpa using h)
    rw [List.length_append,List.length_singleton] at hnext
    have hfirst : data[before.length]?=some b := @read_byte _ before (piece++after) b (by simpa using h)
    simp only [List.length_cons,readBytes,hfirst,hnext]
    rfl

end Reading

section UuidScan

/-- The loop over a list of UUIDs. -/
def findUuid128 (uuid : Uuid128) (data : List UInt8) (fieldEnd : UInt16) :
    ℕ → UInt16 → Option Bool
  | 0,_ => none
  | fuel+1,pos =>
    if pos.toNat+16≤fieldEnd.toNat then do
      let bytes ← readBytes data pos.toNat 16
      if bytes=uuid.toList then pure true
      else findUuid128 uuid data fieldEnd fuel (pos+16)
    else pure false

/-- Look for the UUID in a field, if its type is one of the two for lists of UUIDs. -/
def fieldHasUuid128 (uuid : Uuid128) (data : List UInt8) (offset : UInt8) (fieldEnd : UInt16)
    (type : UInt8) : Option Bool :=
  if type=6 ∨ type=7 then findUuid128 uuid data fieldEnd (data.length+1) (offset.toUInt16+2)
  else some false

/-- The loop of `ble_adv_has_uuid128`. -/
def scanUuid128 (uuid : Uuid128) (data : List UInt8) : ℕ → UInt8 → Option Bool
  | 0,_ => none
  | fuel+1,offset =>
    if offset.toNat<data.length then do
      let fieldLen ← data[offset.toNat]?
      if fieldLen=0 then pure false
      else
        let fieldEnd := offset.toUInt16+1+fieldLen.toUInt16
        if data.length<fieldEnd.toNat ∨ fieldLen<1 then pure false
        else do
          let type ← data[offset.toNat+1]?
          let found ← fieldHasUuid128 uuid data offset fieldEnd type
          if found then pure true
          else scanUuid128 uuid data fuel fieldEnd.toUInt8
    else pure false

variable {uuid : Uuid128} {data before content after rest : List UInt8} {fuel : ℕ}

theorem listsUuid128_short (h : content.length<16) : listsUuid128 uuid content=false := by
  unfold listsUuid128
  rw [Nat.div_eq_of_lt h]
  rfl

theorem listsUuid128_long (h : 16≤ content.length) :
    listsUuid128 uuid content=
      (decide (content.take 16=uuid.toList) || listsUuid128 uuid (content.drop 16)) := by
  have hcount : content.length/16=(content.length-16)/16+1 := by omega
  unfold listsUuid128
  rw [hcount,List.range_succ_eq_map,List.any_cons,List.any_map,List.length_drop]
  have hdrop : ∀ i,(content.drop 16).drop (16*i)=content.drop (16*(i+1)) := by
    intro i
    rw [List.drop_drop]
    congr 1
    omega
  simp [Function.comp_def,hdrop]

/-- A list has the UUID at a multiple of its size. -/
theorem listsUuid128_iff :
    listsUuid128 uuid content=true ↔ ∃ k,(content.drop (16*k)).take 16=uuid.toList := by
  unfold listsUuid128
  simp only [List.any_eq_true,List.mem_range,decide_eq_true_iff]
  refine ⟨fun ⟨k,_,h⟩ => ⟨k,h⟩,fun ⟨k,h⟩ => ⟨k,?_,h⟩⟩
  have hlength := congrArg List.length h
  have huuid : uuid.toList.length=16 := uuid.2
  rw [List.length_take,List.length_drop,huuid] at hlength
  omega

/-- The loop over a list of UUIDs finds whether it has the one. -/
theorem findUuid128_spec {fieldEnd pos : UInt16} (hdata : data=before++content++after)
    (hpos : pos.toNat=before.length) (hend : fieldEnd.toNat=before.length+content.length)
    (hfuel : content.length/16<fuel) :
    findUuid128 uuid data fieldEnd fuel pos=some (listsUuid128 uuid content) := by
  induction fuel generalizing before content pos with
  | zero => exact absurd hfuel (Nat.not_lt_zero _)
  | succ fuel ih =>
    unfold findUuid128
    by_cases hlong : 16≤ content.length
    · have hread := @readBytes_inside data before (content.take 16) (content.drop 16++after)
        (by rw [hdata,List.append_assoc,List.append_assoc,← List.append_assoc (content.take 16),
          List.take_append_drop])
      have htake : (content.take 16).length=16 := List.length_take_of_le hlong
      rw [htake] at hread
      rw [if_pos (by omega),hpos,hread,listsUuid128_long hlong]
      have hbound := fieldEnd.toNat_lt
      have hnext : (pos+16).toNat=(before++content.take 16).length := by
        rw [UInt16.toNat_add,List.length_append,htake]
        change (pos.toNat+16)%2^16=_
        omega
      have hrest := @ih (before++content.take 16) (content.drop 16) (pos+16)
        (by rw [hdata,List.append_assoc before (content.take 16),List.take_append_drop]) hnext
        (by rw [List.length_append,htake,List.length_drop]; omega)
        (by rw [List.length_drop]; omega)
      by_cases hfound : content.take 16=uuid.toList
      · simp [hfound]
      · simp [hfound,hrest]
    · rw [if_neg (by omega),listsUuid128_short (Nat.lt_of_not_le hlong)]
      rfl

theorem toNat_fieldEnd (offset fieldLen : UInt8) :
    (offset.toUInt16+1+fieldLen.toUInt16).toNat=offset.toNat+1+fieldLen.toNat := by
  have hoffset := offset.toNat_lt
  have hlen := fieldLen.toNat_lt
  simp only [UInt16.toNat_add,UInt8.toNat_toUInt16]
  change ((offset.toNat+1)%2^16+fieldLen.toNat)%2^16=_
  omega

/-- A field is read by its length byte and its type. -/
theorem read_field {fields : List AdvField} {field : AdvField} {offset : UInt8}
    (hoffset : offset.toNat=before.length)
    (hdata : data=before++(field::fields).flatMap AdvField.bytes++rest) :
    data[offset.toNat]?=some (UInt8.ofNat (field.content.length+1)) ∧
      data[offset.toNat+1]?=some field.type ∧
      offset.toNat+2+field.content.length≤data.length := by
  have hfields : data=before++UInt8.ofNat (field.content.length+1)::field.type::
      (field.content++(fields.flatMap AdvField.bytes++rest)) := by
    rw [hdata,List.flatMap_cons]
    simp [AdvField.bytes]
  have hcount := congrArg List.length hfields
  simp only [List.length_append,List.length_cons] at hcount
  refine ⟨by rw [hoffset]; exact read_byte hfields,?_,by omega⟩
  have hread := @read_byte data (before++[UInt8.ofNat (field.content.length+1)])
    (field.content++(fields.flatMap AdvField.bytes++rest)) field.type (by rw [hfields]; simp)
  rw [List.length_append,List.length_singleton,← hoffset] at hread
  exact hread

/-- The content of a field lies behind these two. -/
theorem data_field {fields : List AdvField} {field : AdvField}
    (hdata : data=before++(field::fields).flatMap AdvField.bytes++rest) :
    data=(before++[UInt8.ofNat (field.content.length+1),field.type])++field.content++
      (fields.flatMap AdvField.bytes++rest) := by
  rw [hdata,List.flatMap_cons]
  simp [AdvField.bytes]

/-- A field that may list the UUID, and does. -/
def AdvField.lists (uuid : Uuid128) (field : AdvField) : Bool :=
  (field.type=6 || field.type=7) && listsUuid128 uuid field.content

/-- The scan for a UUID goes over the fields. -/
theorem scanUuid128_spec {fields : List AdvField} {stop : FieldsEnd} {offset : UInt8}
    (hlength : data.length<256) (hdata : data=before++fields.flatMap AdvField.bytes++rest)
    (hend : EndsAs stop rest) (hoffset : offset.toNat=before.length)
    (hfuel : fields.length<fuel) :
    scanUuid128 uuid data fuel offset=some (fields.any (AdvField.lists uuid)) := by
  induction fields generalizing before offset fuel with
  | nil =>
    obtain ⟨fuel,rfl⟩ : ∃ n,fuel=n+1 := ⟨fuel-1,by omega⟩
    have hrest : data=before++rest := by simpa using hdata
    unfold scanUuid128
    cases stop with
    | ended =>
      cases hend
      rw [if_neg (by rw [hoffset,hrest]; simp)]
      rfl
    | zero =>
      obtain ⟨tail,rfl⟩ := hend
      rw [if_pos (by rw [hoffset,hrest]; simp),hoffset,read_byte hrest]
      rfl
    | truncated =>
      obtain ⟨fieldLen,tail,rfl,hne,hshort⟩ := hend
      have hcount := congrArg List.length hrest
      rw [List.length_append,List.length_cons] at hcount
      rw [if_pos (by omega),hoffset,read_byte hrest]
      have hpast : data.length<(offset.toUInt16+1+fieldLen.toUInt16).toNat := by
        rw [toNat_fieldEnd]
        omega
      simp only [Option.bind_eq_bind,Option.bind_some,hne,if_false,hpast,true_or,if_true]
      rfl
  | cons field fields ih =>
    obtain ⟨fuel,rfl⟩ : ∃ n,fuel=n+1 := ⟨fuel-1,by omega⟩
    obtain ⟨hfirst,htype,hcount⟩ := read_field hoffset hdata
    have hfieldEnd := toNat_fieldEnd offset (UInt8.ofNat (field.content.length+1))
    rw [toNat_lengthByte] at hfieldEnd
    have hfind : fieldHasUuid128 uuid data offset (offset.toUInt16+1+
        (UInt8.ofNat (field.content.length+1)).toUInt16) field.type=
          some (field.lists uuid) := by
      unfold fieldHasUuid128 AdvField.lists
      by_cases hlist : field.type=6 ∨ field.type=7
      swap
      · simp only [not_or] at hlist
        simp [hlist]
      have hkind : (decide (field.type=6) || decide (field.type=7))=true := by simpa using hlist
      rw [if_pos hlist,hkind,Bool.true_and]
      refine findUuid128_spec (data_field hdata) ?_ ?_ ?_
      · rw [UInt16.toNat_add,UInt8.toNat_toUInt16,List.length_append]
        change (offset.toNat+2)%2^16=_+2
        omega
      · rw [hfieldEnd,List.length_append]
        change _=before.length+2+_
        omega
      · omega
    have hrest := @ih (before++field.bytes) fuel
      (offset.toUInt16+1+(UInt8.ofNat (field.content.length+1)).toUInt16).toUInt8
      (by rw [hdata,List.flatMap_cons]; simp) (by
        rw [UInt16.toNat_toUInt8,hfieldEnd,List.length_append,length_bytes]
        omega)
      (Nat.lt_of_succ_lt_succ hfuel)
    have hfits : ¬(data.length<(offset.toUInt16+1+
        (UInt8.ofNat (field.content.length+1)).toUInt16).toNat ∨
          UInt8.ofNat (field.content.length+1)<1) := by
      rw [hfieldEnd,UInt8.lt_iff_toNat_lt,toNat_lengthByte]
      change ¬(_ ∨ _<1)
      omega
    unfold scanUuid128
    rw [if_pos (by omega),hfirst]
    simp only [Option.bind_eq_bind,Option.bind_some,lengthByte_ne_zero,if_false,hfits,htype,hfind]
    rw [hrest,List.any_cons]
    cases field.lists uuid <;> rfl

end UuidScan

section NameScan

/-- Store a byte. There is none behind the end of the output. -/
def storeByte (out : List UInt8) (i : ℕ) (byte : UInt8) : Option (List UInt8) :=
  if i<out.length then some (out.set i byte) else none

/-- The loop over the bytes of a name. -/
def copyName (data : List UInt8) (pos : ℕ) : ℕ → ℕ → List UInt8 → Option (List UInt8)
  | 0,_,out => some out
  | n+1,i,out => do
    let ch ← data[pos+i]?
    let out ← storeByte out i (if 0x20≤ ch ∧ ch<0x7f then ch else 46)
    copyName data pos n (i+1) out

/-- Deliver a name: its length and the output. -/
def deliverName (data : List UInt8) (pos : ℕ) (nameLen : UInt8) (out : List UInt8) :
    Option (ℤ×List UInt8) := do
  let copyLen := if out.length≤nameLen.toNat then out.length-1 else nameLen.toNat
  let out ← copyName data pos copyLen 0 out
  let out ← storeByte out copyLen 0
  pure (nameLen.toNat,out)

/-- The loop of `cl_ble_adv_name`. -/
def scanName (data : List UInt8) : ℕ → UInt8 → List UInt8 → Option (ℤ×List UInt8)
  | 0,_,_ => none
  | fuel+1,offset,out =>
    if offset.toNat<data.length then do
      let fieldLen ← data[offset.toNat]?
      let offset := offset+1
      if fieldLen=0 then pure (0,out)
      else if data.length<offset.toNat+fieldLen.toNat then pure (-3,out)
      else do
        let type ← data[offset.toNat]?
        if type=8 ∨ type=9 then deliverName data (offset.toNat+1) (fieldLen-1) out
        else scanName data fuel (offset+fieldLen) out
    else pure (0,out)

/-- The function `cl_ble_adv_name` on the valid data of an event: the result and the output. -/
def clBleAdvName (data out : List UInt8) (fuel : ℕ) : Option (ℤ×List UInt8) :=
  if out=[] ∨ clpBleScanDataMaxBytes<data.length then some (-1,out)
  else do
    let out ← storeByte out 0 0
    scanName data fuel 0 out

variable {data before piece after rest out : List UInt8} {fuel i : ℕ}

theorem storeByte_inside (b : UInt8) (h : i<out.length) :
    storeByte out i b=some (out.take i++b::out.drop (i+1)) := by
  unfold storeByte
  rw [if_pos h,List.set_eq_take_append_cons_drop,if_pos h]

/-- The bytes of a name are stored behind one another. -/
theorem copyName_spec {pos : ℕ} (hdata : data=before++piece++after)
    (hpos : pos+i=before.length) (hroom : i+piece.length≤out.length) :
    copyName data pos piece.length i out=
      some (out.take i++printable piece++out.drop (i+piece.length)) := by
  induction piece generalizing before i out with
  | nil => simp [copyName,printable]
  | cons b piece ih =>
    rw [List.length_cons] at hroom
    have hfirst : data[before.length]?=some b := @read_byte _ before (piece++after) b (by simpa using hdata)
    have htake : (out.take i).length=i := List.length_take_of_le (by omega)
    obtain ⟨ch,hch⟩ : ∃ ch,ch=if 0x20≤b ∧ b<0x7f then b else 46 := ⟨_,rfl⟩
    have hrest := @ih (before++[b]) (out.take i++ch::out.drop (i+1)) (i+1) (by simpa using hdata)
      (by rw [List.length_append,List.length_singleton,← hpos,Nat.add_assoc])
      (by simp only [List.length_append,List.length_cons,List.length_drop,htake]; omega)
    have hfront : (out.take i++ch::out.drop (i+1)).take (i+1)=out.take i++[ch] := by
      rw [List.take_append,htake,List.take_of_length_le (by omega),Nat.add_sub_cancel_left]
      rfl
    have hback : (out.take i++ch::out.drop (i+1)).drop (i+1+piece.length)=
        out.drop (i+(b::piece).length) := by
      have harith : i+1+piece.length-i=piece.length+1 := by omega
      rw [List.drop_append,htake,List.drop_of_length_le (by omega),harith,List.drop_succ_cons,
        List.drop_drop,List.length_cons,List.nil_append]
      congr 1
      omega
    rw [hfront,hback] at hrest
    rw [List.length_cons,copyName,hpos,hfirst]
    simp only [Option.bind_eq_bind,Option.bind_some]
    rw [← hch,storeByte_inside ch (by omega),Option.bind_some,hrest]
    simp [printable,hch]

/-- What the output is when a name is delivered. -/
def delivered (name out : List UInt8) : List UInt8 :=
  printable (name.take (out.length-1))++0::out.drop ((name.take (out.length-1)).length+1)

/-- The output keeps its size. -/
theorem length_delivered (name : List UInt8) (hout : out≠[]) :
    (delivered name out).length=out.length := by
  have hpos := List.length_pos_iff.mpr hout
  unfold delivered printable
  simp only [List.length_append,List.length_map,List.length_take,List.length_cons,
    List.length_drop]
  omega

/-- A field with a name. -/
def AdvField.isName (field : AdvField) : Bool := field.type=8 || field.type=9

/-- What the scan for a name returns. -/
def nameResult (fields : List AdvField) (stop : FieldsEnd) (out : List UInt8) : ℤ×List UInt8 :=
  match fields.find? AdvField.isName with
  | some field => (field.content.length,delivered field.content out)
  | none => (if stop=.truncated then -3 else 0,out)

/-- A name is cut at the size of the output and ended. -/
theorem deliverName_spec {nameLen : UInt8} (hdata : data=before++piece++after)
    (hlen : nameLen.toNat=piece.length) (hout : out≠[]) :
    deliverName data before.length nameLen out=
      some ((piece.length : ℤ),delivered piece out) := by
  have hpos := List.length_pos_iff.mpr hout
  have hcopy : (if out.length≤piece.length then out.length-1 else piece.length)=
      (piece.take (out.length-1)).length := by
    rw [List.length_take]
    split <;> omega
  obtain ⟨name,hname⟩ : ∃ name,name=piece.take (out.length-1) := ⟨_,rfl⟩
  have hlength : name.length≤out.length-1 := by
    rw [hname,List.length_take]
    omega
  have hsplit : data=before++name++(piece.drop (out.length-1)++after) := by
    rw [hdata,hname,List.append_assoc,List.append_assoc,← List.append_assoc (piece.take _),
      List.take_append_drop]
  have hprint : (printable name).length=name.length := List.length_map _
  have hstore := @storeByte_inside (printable name++out.drop name.length) name.length 0 (by
    rw [List.length_append,hprint,List.length_drop]
    omega)
  rw [← hprint,List.take_left,← List.drop_drop,List.drop_left,hprint,List.drop_drop] at hstore
  unfold deliverName
  rw [hlen,hcopy,← hname]
  simp only [Option.bind_eq_bind]
  rw [copyName_spec hsplit (Nat.add_zero _) (by omega),Option.bind_some,List.take_zero,
    List.nil_append,Nat.zero_add,hstore]
  unfold delivered
  rw [← hname]
  rfl

theorem toNat_next {offset : UInt8} (h : offset.toNat<255) :
    (offset+1).toNat=offset.toNat+1 := by
  rw [UInt8.toNat_add]
  change (offset.toNat+1)%2^8=_
  omega

/-- The scan for a name goes over the fields. -/
theorem scanName_spec {fields : List AdvField} {stop : FieldsEnd} {offset : UInt8}
    (hlength : data.length<256) (hdata : data=before++fields.flatMap AdvField.bytes++rest)
    (hend : EndsAs stop rest) (hoffset : offset.toNat=before.length)
    (hfuel : fields.length<fuel) (hout : out≠[]) :
    scanName data fuel offset out=some (nameResult fields stop out) := by
  induction fields generalizing before offset fuel with
  | nil =>
    obtain ⟨fuel,rfl⟩ : ∃ n,fuel=n+1 := ⟨fuel-1,by omega⟩
    have hrest : data=before++rest := by simpa using hdata
    unfold scanName
    cases stop with
    | ended =>
      cases hend
      rw [if_neg (by rw [hoffset,hrest]; simp)]
      rfl
    | zero =>
      obtain ⟨tail,rfl⟩ := hend
      rw [if_pos (by rw [hoffset,hrest]; simp),hoffset,read_byte hrest]
      rfl
    | truncated =>
      obtain ⟨fieldLen,tail,rfl,hne,hshort⟩ := hend
      have hcount := congrArg List.length hrest
      rw [List.length_append,List.length_cons] at hcount
      have hpast : data.length<(offset+1).toNat+fieldLen.toNat := by
        rw [toNat_next (by omega)]
        omega
      rw [if_pos (by omega),hoffset,read_byte hrest]
      simp only [Option.bind_eq_bind,Option.bind_some,hne,if_false,hpast,if_true]
      rfl
  | cons field fields ih =>
    obtain ⟨fuel,rfl⟩ : ∃ n,fuel=n+1 := ⟨fuel-1,by omega⟩
    obtain ⟨hfirst,htype,hcount⟩ := read_field hoffset hdata
    have hnext : (offset+1).toNat=offset.toNat+1 := toNat_next (by omega)
    have hfits : ¬data.length<(offset+1).toNat+
        (UInt8.ofNat (field.content.length+1)).toNat := by
      rw [hnext,toNat_lengthByte]
      omega
    unfold scanName
    rw [if_pos (by omega),hfirst]
    simp only [Option.bind_eq_bind,Option.bind_some,lengthByte_ne_zero,if_false,hfits]
    rw [hnext,htype,Option.bind_some]
    by_cases hname : field.type=8 ∨ field.type=9
    · have hkind : field.isName=true := by simpa [AdvField.isName] using hname
      have hone : (1 : UInt8)≤UInt8.ofNat (field.content.length+1) := by
        rw [UInt8.le_iff_toNat_le,toNat_lengthByte]
        exact Nat.succ_le_succ (Nat.zero_le _)
      have hlen : (UInt8.ofNat (field.content.length+1)-1).toNat=field.content.length := by
        rw [UInt8.toNat_sub_of_le _ _ hone,toNat_lengthByte]
        rfl
      have hpos : offset.toNat+1+1=
          (before++[UInt8.ofNat (field.content.length+1),field.type]).length := by
        rw [List.length_append,hoffset]
        rfl
      unfold nameResult
      rw [if_pos hname,hpos,deliverName_spec (data_field hdata) hlen hout,List.find?_cons_of_pos hkind]
    · have hkind : ¬field.isName=true := by simpa [AdvField.isName] using hname
      have hrest := @ih (before++field.bytes) fuel
        (offset+1+UInt8.ofNat (field.content.length+1))
        (by rw [hdata,List.flatMap_cons]; simp) (by
          rw [UInt8.toNat_add,hnext,toNat_lengthByte,List.length_append,length_bytes]
          omega)
        (Nat.lt_of_succ_lt_succ hfuel)
      unfold nameResult at hrest ⊢
      rw [if_neg hname,hrest,List.find?_cons_of_neg hkind]

end NameScan

section Results

variable {data rest : List UInt8} {fields : List AdvField} {stop : FieldsEnd}

/-- What the client takes for the search sees the same fields. -/
theorem bleAdvHasUuid128_fields (uuid : Uuid128) (hdata : data=fields.flatMap AdvField.bytes++rest)
    (hend : EndsAs stop rest) :
    bleAdvHasUuid128 uuid data=fields.any (AdvField.lists uuid) := by
  induction fields generalizing data with
  | nil =>
    have hrest : data=rest := hdata
    rw [hrest]
    cases stop with
    | ended =>
      cases hend
      rw [bleAdvHasUuid128]
      rfl
    | zero =>
      obtain ⟨tail,rfl⟩ := hend
      rw [bleAdvHasUuid128,if_pos (Or.inl rfl)]
      rfl
    | truncated =>
      obtain ⟨fieldLen,tail,rfl,-,hshort⟩ := hend
      rw [bleAdvHasUuid128,if_pos (Or.inr hshort)]
      rfl
  | cons field fields ih =>
    have hsplit : data=UInt8.ofNat (field.content.length+1)::field.type::(field.content++
        (fields.flatMap AdvField.bytes++rest)) := by
      rw [hdata,List.flatMap_cons]
      simp [AdvField.bytes]
    have hthere : ¬(UInt8.ofNat (field.content.length+1)=0 ∨
        (field.type::(field.content++(fields.flatMap AdvField.bytes++rest))).length<
          (UInt8.ofNat (field.content.length+1)).toNat) := by
      rw [toNat_lengthByte,List.length_cons,List.length_append]
      rintro (h | h)
      · exact lengthByte_ne_zero field h
      · omega
    rw [hsplit,bleAdvHasUuid128,if_neg hthere,toNat_lengthByte,List.take_succ_cons,List.take_left,
      List.drop_succ_cons,List.drop_zero,List.drop_succ_cons,List.drop_left,ih rfl,List.any_cons]
    unfold AdvField.lists
    split
    next hfound =>
      have hlists : ((decide (field.type=6) || decide (field.type=7)) &&
        listsUuid128 uuid field.content)=true := hfound
      rw [hlists,Bool.true_or]
    next hfound =>
      have hlists : ((decide (field.type=6) || decide (field.type=7)) &&
        listsUuid128 uuid field.content)=false := Bool.eq_false_iff.mpr hfound
      rw [hlists,Bool.false_or]

/-- There are no more fields than bytes. -/
theorem length_fields_le (hdata : data=fields.flatMap AdvField.bytes++rest) :
    fields.length≤data.length := by
  induction fields generalizing data with
  | nil => exact Nat.zero_le _
  | cons field fields ih =>
    have hlength := congrArg List.length hdata
    rw [List.flatMap_cons,List.append_assoc,List.length_append,length_bytes] at hlength
    have hrest := @ih (fields.flatMap AdvField.bytes++rest) rfl
    rw [List.length_cons]
    omega

/-- Advertising data of an admitted length has fields and an end, which it tells alone. The
scans end without a read outside of it. The one for a UUID finds it exactly if a field of type
six or seven lists it. The one for a name delivers the first field of type eight or nine, cut
at the size of the output, and fails without one exactly if a field was cut off. -/
theorem adv_scans_exact {data : List UInt8} {fuel : ℕ}
    (hlength : data.length≤ clpBleScanDataMaxBytes) (hfuel : data.length<fuel) :
    ∃ fields stop,HasFields data fields stop ∧
      (∀ fields' stop',HasFields data fields' stop' → fields'=fields ∧ stop'=stop) ∧
      (∀ uuid,scanUuid128 uuid data fuel 0=some (bleAdvHasUuid128 uuid data) ∧
        (bleAdvHasUuid128 uuid data=true ↔ ∃ field∈fields,(field.type=6 ∨ field.type=7) ∧
          ∃ k,(field.content.drop (16*k)).take 16=uuid.toList)) ∧
      ∀ out,out≠[] →
        (∀ field,fields.find? AdvField.isName=some field →
          clBleAdvName data out fuel=
            some ((field.content.length : ℤ),delivered field.content out) ∧
          (delivered field.content out).length=out.length) ∧
        (fields.find? AdvField.isName=none →
          clBleAdvName data out fuel=some (if stop=.truncated then -3 else 0,0::out.tail)) := by
  obtain ⟨fields,stop,hfields⟩ := exists_fields data
  obtain ⟨rest,hdata,hend⟩ := id hfields
  have hmax : data.length<256 := Nat.lt_of_le_of_lt hlength (by decide)
  have hcount := length_fields_le hdata
  refine ⟨fields,stop,hfields,fun _ _ h => hasFields_unique h hfields,fun uuid => ⟨?_,?_⟩,
    fun out hout => ?_⟩
  · rw [bleAdvHasUuid128_fields uuid hdata hend]
    exact @scanUuid128_spec uuid data [] rest fuel fields stop 0 hmax hdata hend rfl (by omega)
  · rw [bleAdvHasUuid128_fields uuid hdata hend]
    simp [AdvField.lists,listsUuid128_iff]
  · cases out with
    | nil => exact absurd rfl hout
    | cons first tail =>
      have hscan := @scanName_spec data [] rest (0::tail) fuel fields stop 0 hmax hdata hend rfl
        (by omega) (List.cons_ne_nil _ _)
      have hname : clBleAdvName data (first::tail) fuel=some (nameResult fields stop (0::tail)) := by
        unfold clBleAdvName
        rw [if_neg (by rintro (h | h); exacts [hout h,absurd hlength (Nat.not_le.mpr h)])]
        exact hscan
      unfold nameResult at hname
      refine ⟨fun field hfield => ⟨?_,length_delivered _ hout⟩,fun hnone => ?_⟩
      · rw [hname,hfield]
        rfl
      · rw [hname,hnone]
        rfl

/-- A name of three bytes behind two flags, and a field that is cut off. -/
def smallAdv : List UInt8 := [2,1,6,4,9,0x61,0x0a,0x62,5,6]

/-- The scans of that data. -/
theorem adv_scans_exact_small :
    ∃ fields stop,HasFields smallAdv fields stop ∧
      (∀ fields' stop',HasFields smallAdv fields' stop' → fields'=fields ∧ stop'=stop) ∧
      (∀ uuid,scanUuid128 uuid smallAdv 11 0=some (bleAdvHasUuid128 uuid smallAdv) ∧
        (bleAdvHasUuid128 uuid smallAdv=true ↔ ∃ field∈fields,(field.type=6 ∨ field.type=7) ∧
          ∃ k,(field.content.drop (16*k)).take 16=uuid.toList)) ∧
      ∀ out,out≠[] →
        (∀ field,fields.find? AdvField.isName=some field →
          clBleAdvName smallAdv out 11=
            some ((field.content.length : ℤ),delivered field.content out) ∧
          (delivered field.content out).length=out.length) ∧
        (fields.find? AdvField.isName=none →
          clBleAdvName smallAdv out 11=
            some (if stop=.truncated then -3 else 0,0::out.tail)) :=
  adv_scans_exact (by decide) (by decide)

example : clBleAdvName smallAdv [7,7,7] 11=some (3,[0x61,0x2e,0]) := by decide

end Results

end ChisLink.AdvertisingScans
