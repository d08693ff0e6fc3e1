import ChisLink.CartSaveDriver
import ChisLink.SerialBits

/-!
# Units of EEPROM

Units of EEPROM are read and written over a serial line, with a bit in each halfword that
the DMA moves between a buffer and the chip. A request is the command, the address, the
data of a write and a stop bit. The default reader asks for a unit until it has the same
bytes three times in a row, and the default writer reads back what it wrote.
-/

namespace ChisLink.EepromUnits

open DriverPrograms SerialBits
open CartSaveDriver (eepromAddressBits clCartGbaEepromUnitSize)

variable {σ : Type}

section Definitions

/-- Reads of a unit that are attempted. -/
def clCartGbaEepromReadAttempts : ℕ := 8

/-- Equal reads in a row that are asked for. -/
def clCartGbaEepromStableReads : UInt8 := 3

/-- The chip on the cartridge bus, as the DMA and the processor see it. -/
structure EepromChip (σ : Type) where
  /-- The DMA writes halfwords to it. -/
  send : List UInt16 → σ → σ
  /-- The DMA reads so many halfwords from it, each by its number. -/
  recv : ℕ → σ → (ℕ → UInt16)×σ
  /-- The processor reads a halfword from it. -/
  read : σ → UInt16×σ

/-- The chip with the variables that its functions use. -/
structure EepromPort (σ : Type) where
  /-- State of the chip. -/
  dev : σ
  /-- The buffer `g_eeprom_bits`. -/
  bits : Vector UInt16 81
  /-- The wait-state register. -/
  waitcnt : UInt16
  /-- What was sent to the chip, in this order. -/
  sent : List (List UInt16)

/-- A halfword is stored in the buffer. Behind its end there is nothing to store to. -/
def storeBit (i : ℕ) (value : UInt16) : Prog (EepromPort σ) Unit := fun s =>
  if h : i<81 then (some (),{s with bits := s.bits.set i value h}) else (none,s)

/-- Halfwords are stored one behind the other. -/
def storeBits (i : ℕ) : List UInt16 → Prog (EepromPort σ) Unit
  | [] => pure ()
  | value::values => do
    storeBit i value
    storeBits (i+1) values

variable (chip : EepromChip σ)

/-- The function `eeprom_dma_send`. -/
def eepromDmaSend (count : ℕ) : Prog (EepromPort σ) Unit := fun s =>
  if count≤81 then
    let halves := s.bits.toList.take count
    (some (),{s with dev := chip.send halves s.dev,sent := s.sent++[halves]})
  else (none,s)

/-- The function `eeprom_dma_recv`. -/
def eepromDmaRecv (count : ℕ) : Prog (EepromPort σ) Unit := fun s =>
  if count≤81 then
    let reply := chip.recv count s.dev
    (some (),{s with
      dev := reply.2
      bits := Vector.ofFn fun i => if i.val<count then reply.1 i.val else s.bits.get i})
  else (none,s)

/-- The function `eeprom_waitcnt_enter`. -/
def eepromWaitcntEnter : Prog (EepromPort σ) UInt16 :=
  access fun s => (s.waitcnt,{s with waitcnt := (s.waitcnt &&& ~~~0x0f00) ||| 0x0300})

/-- The function `eeprom_waitcnt_restore`. -/
def eepromWaitcntRestore (old : UInt16) : Prog (EepromPort σ) Unit :=
  update fun s => {s with waitcnt := old}

/-- The bytes of the successive groups of eight halfwords. -/
def packBytes : ℕ → List UInt16 → List UInt8
  | 0,_ => []
  | n+1,halves => shiftIn (halves.take 8)::packBytes n (halves.drop 8)

/-- The function `eeprom_pack_read_bits`. -/
def eepromPackReadBits (halves : List UInt16) : List UInt8 := packBytes 8 (halves.drop 4)

/-- The halfwords that the loops over the address store. -/
def addressHalves (unit : UInt32) (addressBits : ℕ) : List UInt16 :=
  (List.range addressBits).map fun i =>
    UInt32.toUInt16 ((unit >>> UInt32.ofNat (addressBits-1-i)) &&& 1)

/-- The halfwords that the loops over the data store. -/
def dataHalves (data : List UInt8) : List UInt16 :=
  data.flatMap fun byte => ([7,6,5,4,3,2,1,0] : List UInt8).map fun bit =>
    UInt8.toUInt16 ((byte >>> bit) &&& 1)

/-- The function `eeprom_prepare_read_bits`. -/
def eepromPrepareReadBits (unit : UInt32) (addressBits : ℕ) :
    Prog (EepromPort σ) Unit := do
  storeBit 0 1
  storeBit 1 1
  storeBits 2 (addressHalves unit addressBits)
  storeBit (2+addressBits) 0

/-- The function `default_eeprom_read_unit_once`: the result and the unit. -/
def defaultEepromReadUnitOnce (unit : UInt32) (addressBits : ℕ) :
    Prog (EepromPort σ) (ℤ×List UInt8) := do
  eepromPrepareReadBits unit addressBits
  eepromDmaSend chip (addressBits+3)
  eepromDmaRecv chip 68
  let halves ← inspect fun s => s.bits.toList.take 68
  pure (0,eepromPackReadBits halves)

/-- The variables of the loop of `default_eeprom_read_unit`. -/
structure StableReads where
  /-- The unit that was read last, `last`. -/
  last : List UInt8
  /-- How often in a row. -/
  stableCount : UInt8
  /-- Whether there is one, `have_last`. -/
  haveLast : Bool
  /-- Result of the last attempt. -/
  ret : ℤ

/-- A unit that was read is counted. -/
def countRead (r : StableReads) (ret : ℤ) (current : List UInt8) : StableReads :=
  if r.haveLast=true ∧ r.last=current then
    {r with stableCount := r.stableCount+1,ret}
  else ⟨current,1,true,ret⟩

/-- The loop of `default_eeprom_read_unit`, with the attempts that are left: the result and
the bytes that are put out. -/
def readAttempts (unit : UInt32) (addressBits : ℕ) :
    ℕ → StableReads → Prog (EepromPort σ) (ℤ×Option (List UInt8))
  | 0,r => pure (if r.ret<0 then r.ret else -2,if r.haveLast then some r.last else none)
  | attempts+1,r => do
    let (ret,current) ← defaultEepromReadUnitOnce chip unit addressBits
    if ret<0 then readAttempts unit addressBits attempts {r with ret}
    else
      let r' := countRead r ret current
      if clCartGbaEepromStableReads≤ r'.stableCount then pure (0,some current)
      else readAttempts unit addressBits attempts r'

/-- The function `default_eeprom_read_unit`. -/
def defaultEepromReadUnit (unit : UInt32) (addressBits : ℕ) :
    Prog (EepromPort σ) (ℤ×Option (List UInt8)) :=
  if addressBits≠6 ∧ addressBits≠14 then pure (-1,none)
  else do
    let oldWaitcnt ← eepromWaitcntEnter
    let reply ← readAttempts chip unit addressBits clCartGbaEepromReadAttempts
      ⟨List.replicate 8 0,0,false,-2⟩
    eepromWaitcntRestore oldWaitcnt
    pure reply

/-- Wait until the chip answers with a set bit. -/
def waitReady : ℕ → Prog (EepromPort σ) Bool
  | 0 => pure false
  | n+1 => do
    let half ← access fun s => ((chip.read s.dev).1,{s with dev := (chip.read s.dev).2})
    if half &&& 1=1 then pure true else waitReady n

/-- The bits of a write are put into the buffer. -/
def prepareWriteBits (unit : UInt32) (addressBits : ℕ) (data : List UInt8) :
    Prog (EepromPort σ) Unit := do
  storeBit 0 1
  storeBit 1 0
  storeBits 2 (addressHalves unit addressBits)
  storeBits (2+addressBits) (dataHalves data)
  storeBit (2+addressBits+64) 0

/-- The loop of `default_eeprom_write_unit`, with the attempts that are left. -/
def writeAttempts (unit : UInt32) (addressBits : ℕ) (data : List UInt8) :
    ℕ → Prog (EepromPort σ) ℤ
  | 0 => pure (-2)
  | attempts+1 => do
    prepareWriteBits unit addressBits data
    eepromDmaSend chip (2+addressBits+64+1)
    let ready ← waitReady chip 0x10000
    if ready=false then writeAttempts unit addressBits data attempts
    else
      let (ret,verify) ← defaultEepromReadUnit chip unit addressBits
      if ret=0 ∧ verify=some data then pure 0
      else writeAttempts unit addressBits data attempts

/-- The function `default_eeprom_write_unit`. -/
def defaultEepromWriteUnit (unit : UInt32) (addressBits : ℕ) (data : List UInt8) :
    Prog (EepromPort σ) ℤ :=
  if addressBits≠6 ∧ addressBits≠14 then pure (-1)
  else do
    let oldWaitcnt ← eepromWaitcntEnter
    let result ← writeAttempts chip unit addressBits data 3
    eepromWaitcntRestore oldWaitcnt
    pure result

end Definitions

section Requests

/-- The request for a unit. -/
def readRequest (unit : UInt32) (addressBits : ℕ) : List UInt16 :=
  [1,1]++msbFirst addressBits unit.toNat++[0]

/-- The request that writes a unit. -/
def writeRequest (unit : UInt32) (addressBits : ℕ) (data : List UInt8) : List UInt16 :=
  [1,0]++msbFirst addressBits unit.toNat++byteBits data++[0]

theorem length_readRequest (unit : UInt32) (addressBits : ℕ) :
    (readRequest unit addressBits).length=addressBits+3 := by
  rw [readRequest,List.length_append,List.length_append,length_msbFirst,List.length_cons,
    List.length_singleton,List.length_singleton]
  omega

theorem length_writeRequest (unit : UInt32) (addressBits : ℕ) {data : List UInt8}
    (hdata : data.length=8) :
    (writeRequest unit addressBits data).length=2+addressBits+64+1 := by
  rw [writeRequest,List.length_append,List.length_append,List.length_append,length_msbFirst,
    length_byteBits,hdata,List.length_cons,List.length_singleton]

/-- The loop over the address stores its bits, the highest one first. -/
theorem addressHalves_eq (unit : UInt32) {addressBits : ℕ} (h : addressBits≤32) :
    addressHalves unit addressBits=msbFirst addressBits unit.toNat := by
  rw [addressHalves,msbFirst_eq_range]
  refine List.map_congr_left fun i hi => ?_
  have hi' := List.mem_range.mp hi
  have hshift : (UInt32.ofNat (addressBits-1-i)).toNat=addressBits-1-i :=
    UInt32.toNat_ofNat_of_lt' (by change _<2^32; omega)
  have hnat : ((unit >>> UInt32.ofNat (addressBits-1-i)) &&& 1).toNat=
      unit.toNat/2^(addressBits-1-i)%2 := by
    rw [UInt32.toNat_and,UInt32.toNat_shiftRight,hshift,Nat.mod_eq_of_lt (by omega),
      Nat.shiftRight_eq_div_pow]
    exact Nat.and_one_is_mod _
  apply UInt16.toNat_inj.mp
  rw [UInt32.toNat_toUInt16,hnat,Nat.testBit_eq_decide_div_mod_eq]
  rcases Nat.mod_two_eq_zero_or_one (unit.toNat/2^(addressBits-1-i)) with hz|ho
  · rw [hz]
    rfl
  · rw [ho]
    rfl

/-- The loops over the data store its bytes, each with the highest bit first. -/
theorem dataHalves_eq (data : List UInt8) : dataHalves data=byteBits data := by
  have hbits : ∀ n<256,([7,6,5,4,3,2,1,0] : List UInt8).map (fun bit =>
      UInt8.toUInt16 ((UInt8.ofNat n >>> bit) &&& 1))=msbFirst 8 n := by decide +kernel
  refine congrArg (fun f => data.flatMap f) (funext fun byte => ?_)
  have hbyte := hbits _ byte.toNat_lt
  rw [UInt8.ofNat_toNat] at hbyte
  exact hbyte

/-- A unit of a chip is told by its address. -/
theorem address_value {size : ℕ} {unit : UInt32} (hsize : size=512 ∨ size=8192)
    (hunit : unit.toNat*clCartGbaEepromUnitSize<size) :
    ofMsbFirst (msbFirst (eepromAddressBits size) unit.toNat)=unit.toNat := by
  unfold clCartGbaEepromUnitSize at hunit
  refine ofMsbFirst_of_lt ?_
  rcases hsize with rfl|rfl
  · change unit.toNat<2^6
    omega
  · change unit.toNat<2^14
    omega

end Requests

section Packing

theorem packBytes_byteBits (data : List UInt8) {halves : List UInt16}
    (h : halves.map lowBit=byteBits data) : packBytes data.length halves=data := by
  induction data generalizing halves with
  | nil => rfl
  | cons byte data ih =>
    rw [byteBits_cons] at h
    have hlength := length_msbFirst 8 byte.toNat
    have hfirst : (halves.take 8).map lowBit=msbFirst 8 byte.toNat := by
      rw [List.map_take,h,List.take_left' hlength]
    have hrest : (halves.drop 8).map lowBit=byteBits data := by
      rw [List.map_drop,h,List.drop_left' hlength]
    rw [List.length_cons,packBytes,ih hrest,← shiftIn_lowBit,hfirst,shiftIn_msbFirst]

theorem byteBits_packBytes (n : ℕ) {halves : List UInt16} (h : halves.length=8*n) :
    byteBits (packBytes n halves)=halves.map lowBit := by
  induction n generalizing halves with
  | zero =>
    rw [List.eq_nil_of_length_eq_zero (h.trans (Nat.mul_zero 8))]
    rfl
  | succ n ih =>
    have hfirst : (halves.take 8).length=8 := by rw [List.length_take]; omega
    have hrest : (halves.drop 8).length=8*n := by rw [List.length_drop]; omega
    rw [packBytes,byteBits_cons,ih hrest,msbFirst_shiftIn hfirst,← List.map_append,
      List.take_append_drop]

/-- The unit whose bits were received behind four others. -/
theorem eepromPackReadBits_eq {halves : List UInt16} {data : List UInt8}
    (hdata : data.length=8) (h : (halves.drop 4).map lowBit=byteBits data) :
    eepromPackReadBits halves=data := by
  have hpack := packBytes_byteBits data h
  rw [hdata] at hpack
  exact hpack

/-- Its bits are those that were received. -/
theorem byteBits_eepromPackReadBits {halves : List UInt16} (h : halves.length=68) :
    byteBits (eepromPackReadBits halves)=(halves.drop 4).map lowBit :=
  byteBits_packBytes 8 (by rw [List.length_drop,h])

end Packing

section Buffer

variable {s t u : EepromPort σ} {D : EepromPort σ → Prop} {front : List UInt16}

/-- The buffer begins with these halfwords. -/
def Holds (front : List UInt16) (s : EepromPort σ) : Prop :=
  s.bits.toList.take front.length=front

/-- Only the buffer is changed. -/
def Kept (s t : EepromPort σ) : Prop := t={s with bits := t.bits}

theorem Kept.trans (h : Kept s t) (h' : Kept t u) : Kept s u := by
  unfold Kept at h h'
  rw [h',h]
  rfl

theorem Holds.take (h : Holds front s) {n : ℕ} (hn : front.length=n) :
    s.bits.toList.take n=front := by
  rw [← hn]
  exact h

theorem holds_nil (s : EepromPort σ) : Holds [] s := List.take_zero

/-- A halfword is stored behind those that are there. -/
theorem wp_storeBit (h : Holds front s) {i : ℕ} (hi : i=front.length) (hroom : i<81)
    (value : UInt16) :
    wp (storeBit i value) (fun _ t => Holds (front++[value]) t ∧ Kept s t) D s := by
  unfold wp storeBit
  rw [dif_pos hroom]
  refine ⟨?_,rfl⟩
  have hlength : s.bits.toList.length=81 := Vector.length_toList
  unfold Holds at h ⊢
  rw [List.length_append,List.length_singleton,← hi]
  rw [← hi] at h
  have hset : (s.bits.set i value hroom).toList=s.bits.toList.set i value := by
    rw [Vector.toList_set]
  rw [hset,List.take_add_one,List.take_set_of_le (Nat.le_refl i),h,
    List.getElem?_set_self (by omega)]
  rfl

theorem wp_storeBits (values : List UInt16) (h : Holds front s) {i : ℕ}
    (hi : i=front.length) (hroom : i+values.length≤81) :
    wp (storeBits i values) (fun _ t => Holds (front++values) t ∧ Kept s t) D s := by
  induction values generalizing front s i with
  | nil =>
    rw [List.append_nil]
    exact ⟨h,rfl⟩
  | cons value values ih =>
    rw [List.length_cons] at hroom
    unfold storeBits
    refine wp_seq (wp_storeBit h hi (by omega) value) ?_
    rintro - t ⟨hheld,hkept⟩
    have hnext : i+1=(front++[value]).length := by
      rw [List.length_append,List.length_singleton,hi]
    refine wp_post (ih hheld hnext (by omega)) ?_
    rintro - u ⟨hheld',hkept'⟩
    rw [List.append_assoc] at hheld'
    exact ⟨hheld',hkept.trans hkept'⟩

/-- The buffer holds the request for a unit. -/
theorem wp_eepromPrepareReadBits (unit : UInt32) {addressBits : ℕ}
    (hbits : addressBits=6 ∨ addressBits=14) :
    wp (eepromPrepareReadBits unit addressBits)
      (fun _ t => Holds (readRequest unit addressBits) t ∧ Kept s t) D s := by
  have hsmall : addressBits≤14 := by omega
  have haddress := addressHalves_eq unit (hsmall.trans (by decide))
  have hlength := length_msbFirst addressBits unit.toNat
  unfold eepromPrepareReadBits
  refine wp_seq (wp_storeBit (holds_nil s) rfl (by decide) 1) ?_
  rintro - t ⟨ht,hst⟩
  refine wp_seq (wp_storeBit ht rfl (by decide) 1) ?_
  rintro - u ⟨hu,htu⟩
  rw [wp_bind,haddress]
  refine wp_post (wp_storeBits _ hu rfl (by rw [hlength]; omega)) ?_
  rintro - v ⟨hv,huv⟩
  refine wp_post (wp_storeBit hv (by rw [List.length_append,hlength]; rfl) (by omega) 0) ?_
  rintro - w ⟨hw,hvw⟩
  exact ⟨hw,((hst.trans htu).trans huv).trans hvw⟩

/-- It holds the request that writes a unit. -/
theorem wp_prepareWriteBits (unit : UInt32) {addressBits : ℕ} {data : List UInt8}
    (hbits : addressBits=6 ∨ addressBits=14) (hdata : data.length=8) :
    wp (prepareWriteBits unit addressBits data)
      (fun _ t => Holds (writeRequest unit addressBits data) t ∧ Kept s t) D s := by
  have hsmall : addressBits≤14 := by omega
  have haddress := addressHalves_eq unit (hsmall.trans (by decide))
  have hlength := length_msbFirst addressBits unit.toNat
  have hbytes : (byteBits data).length=64 := by rw [length_byteBits,hdata]
  unfold prepareWriteBits
  refine wp_seq (wp_storeBit (holds_nil s) rfl (by decide) 1) ?_
  rintro - t ⟨ht,hst⟩
  refine wp_seq (wp_storeBit ht rfl (by decide) 0) ?_
  rintro - u ⟨hu,htu⟩
  rw [wp_bind,haddress]
  refine wp_post (wp_storeBits _ hu rfl (by rw [hlength]; omega)) ?_
  rintro - v ⟨hv,huv⟩
  rw [wp_bind,dataHalves_eq]
  refine wp_post (wp_storeBits _ hv (by rw [List.length_append,hlength]; rfl)
    (by rw [hbytes]; omega)) ?_
  rintro - w ⟨hw,hvw⟩
  refine wp_post (wp_storeBit hw
    (by rw [List.length_append,List.length_append,hlength,hbytes]; rfl) (by omega) 0) ?_
  rintro - x ⟨hx,hwx⟩
  exact ⟨hx,(((hst.trans htu).trans huv).trans hvw).trans hwx⟩

end Buffer

section Attempts

variable {chip : EepromChip σ} {unit : UInt32} {addressBits : ℕ}

/-- What one attempt reads, and the chip behind it. -/
def readOnce (chip : EepromChip σ) (unit : UInt32) (addressBits : ℕ) (dev : σ) :
    List UInt8×σ :=
  let reply := chip.recv 68 (chip.send (readRequest unit addressBits) dev)
  (eepromPackReadBits ((List.range 68).map reply.1),reply.2)

/-- The chip after so many attempts. -/
def devAfter (chip : EepromChip σ) (unit : UInt32) (addressBits : ℕ) (dev : σ) (k : ℕ) : σ :=
  (fun dev => (readOnce chip unit addressBits dev).2)^[k] dev

/-- What an attempt reads behind so many others. -/
def valueAt (chip : EepromChip σ) (unit : UInt32) (addressBits : ℕ) (dev : σ) (k : ℕ) :
    List UInt8 :=
  (readOnce chip unit addressBits (devAfter chip unit addressBits dev k)).1

/-- Three attempts in a row read the same. -/
def StableAt (chip : EepromChip σ) (unit : UInt32) (addressBits : ℕ) (dev : σ) (k : ℕ) :
    Prop :=
  valueAt chip unit addressBits dev k=valueAt chip unit addressBits dev (k+1) ∧
    valueAt chip unit addressBits dev (k+1)=valueAt chip unit addressBits dev (k+2)

/-- So many attempts were made, each with its request, and nothing else was sent. -/
structure Attempted (chip : EepromChip σ) (unit : UInt32) (addressBits k : ℕ)
    (s t : EepromPort σ) : Prop where
  /-- The chip has seen them. -/
  dev : t.dev=devAfter chip unit addressBits s.dev k
  /-- The requests. -/
  sent : t.sent=s.sent++List.replicate k (readRequest unit addressBits)

theorem devAfter_succ (dev : σ) (k : ℕ) :
    devAfter chip unit addressBits dev (k+1)=
      (readOnce chip unit addressBits (devAfter chip unit addressBits dev k)).2 :=
  Function.iterate_succ_apply' _ _ _

theorem wp_eepromDmaSend {s : EepromPort σ} {D : EepromPort σ → Prop} {front : List UInt16}
    (h : Holds front s) {count : ℕ} (hcount : count=front.length) (hroom : count≤81) :
    wp (eepromDmaSend chip count) (fun _ t =>
      t={s with dev := chip.send front s.dev,sent := s.sent++[front]}) D s := by
  unfold Holds at h
  rw [← hcount] at h
  unfold wp eepromDmaSend
  rw [if_pos hroom,h]

/-- The DMA delivers halfwords to the front of the buffer. -/
theorem wp_eepromDmaRecv {s : EepromPort σ} {D : EepromPort σ → Prop} {count : ℕ}
    (hroom : count≤81) :
    wp (eepromDmaRecv chip count) (fun _ t =>
      t.bits.toList.take count=(List.range count).map (chip.recv count s.dev).1 ∧
      t.dev=(chip.recv count s.dev).2 ∧ t.waitcnt=s.waitcnt ∧ t.sent=s.sent) D s := by
  unfold wp eepromDmaRecv
  rw [if_pos hroom]
  refine ⟨?_,rfl,rfl,rfl⟩
  refine List.ext_getElem ?_ fun i hi hi' => ?_
  · simp only [List.length_take,Vector.length_toList,List.length_map,List.length_range]
    omega
  · have hcount : i<count := by simpa using hi'
    simp only [List.getElem_take,Vector.getElem_toList,Vector.getElem_ofFn,hcount,if_true,
      List.getElem_map,List.getElem_range]

/-- One attempt reads the unit. -/
theorem wp_defaultEepromReadUnitOnce {s : EepromPort σ} {D : EepromPort σ → Prop}
    (hbits : addressBits=6 ∨ addressBits=14) :
    wp (defaultEepromReadUnitOnce chip unit addressBits) (fun reply t =>
      reply=((0 : ℤ),(readOnce chip unit addressBits s.dev).1) ∧
      t.dev=(readOnce chip unit addressBits s.dev).2 ∧ t.waitcnt=s.waitcnt ∧
      t.sent=s.sent++[readRequest unit addressBits]) D s := by
  unfold defaultEepromReadUnitOnce
  refine wp_seq (wp_eepromPrepareReadBits unit hbits) ?_
  rintro - t ⟨hheld,hkept⟩
  refine wp_seq (wp_eepromDmaSend hheld (length_readRequest unit addressBits).symm
    (by omega)) ?_
  rintro - u rfl
  unfold Kept at hkept
  refine wp_seq (wp_eepromDmaRecv (by decide)) ?_
  rintro - v ⟨hbuffer,hdev,hwait,hsent⟩
  rw [wp_bind,wp_inspect,wp_pure,hbuffer,hdev,hwait,hsent,hkept]
  exact ⟨rfl,rfl,rfl,rfl⟩

end Attempts

section Reader

variable {chip : EepromChip σ} {unit : UInt32} {addressBits : ℕ} {dev : σ}
  {D : EepromPort σ → Prop}

/-- The variables of the loop after so many attempts without success. -/
structure Settled (chip : EepromChip σ) (unit : UInt32) (addressBits : ℕ) (dev : σ)
    (n : ℕ) (r : StableReads) : Prop where
  /-- No three attempts in a row read the same. -/
  unstable : ∀ k,k+3≤n → ¬StableAt chip unit addressBits dev k
  /-- Before the first there is nothing to compare with. -/
  first : n=0 → r.haveLast=false
  /-- Later the last unit is at hand, with its count. -/
  later : ∀ i,n=i+1 → r.haveLast=true ∧ r.last=valueAt chip unit addressBits dev i ∧
    (r.stableCount=1 ∧ (∀ k,i=k+1 →
        valueAt chip unit addressBits dev k≠valueAt chip unit addressBits dev i) ∨
      r.stableCount=2 ∧ ∃ k,i=k+1 ∧
        valueAt chip unit addressBits dev k=valueAt chip unit addressBits dev i)
  /-- The result of the last attempt, or what it is set to. -/
  ret : r.ret=0 ∨ r.ret=-2

/-- The first unit is counted. -/
theorem Settled.start {r : StableReads} (h : Settled chip unit addressBits dev 0 r) :
    countRead r 0 (valueAt chip unit addressBits dev 0)=
        ⟨valueAt chip unit addressBits dev 0,1,true,0⟩ ∧
      Settled chip unit addressBits dev 1
        ⟨valueAt chip unit addressBits dev 0,1,true,0⟩ := by
  constructor
  · unfold countRead
    rw [h.first rfl,if_neg (fun hboth => Bool.false_ne_true hboth.1)]
  · refine ⟨fun k hk => absurd hk (by omega),fun h => absurd h (by omega),?_,Or.inl rfl⟩
    intro i hi
    obtain rfl : i=0 := by omega
    exact ⟨rfl,rfl,Or.inl ⟨rfl,fun k hk => absurd hk (by omega)⟩⟩

/-- Another unit than the last one begins a new count. -/
theorem Settled.other {r : StableReads} {i : ℕ}
    (h : Settled chip unit addressBits dev (i+1) r)
    (hne : valueAt chip unit addressBits dev i≠valueAt chip unit addressBits dev (i+1)) :
    countRead r 0 (valueAt chip unit addressBits dev (i+1))=
        ⟨valueAt chip unit addressBits dev (i+1),1,true,0⟩ ∧
      Settled chip unit addressBits dev (i+2)
        ⟨valueAt chip unit addressBits dev (i+1),1,true,0⟩ := by
  obtain ⟨-,hlast,-⟩ := h.later i rfl
  constructor
  · unfold countRead
    rw [hlast,if_neg (fun hboth => hne hboth.2)]
  · refine ⟨fun k hk => ?_,fun h => absurd h (by omega),?_,Or.inl rfl⟩
    · rcases Nat.lt_or_ge (i+1) (k+3) with hlt|hge
      · obtain rfl : i=k+1 := by omega
        exact fun hstable => hne hstable.2
      · exact h.unstable k hge
    · intro i' hi'
      obtain rfl : i'=i+1 := by omega
      refine ⟨rfl,rfl,Or.inl ⟨rfl,fun k hk => ?_⟩⟩
      obtain rfl : k=i := by omega
      exact hne

/-- The same unit again ends the reading or is the second of its kind. -/
theorem Settled.same {r : StableReads} {i : ℕ}
    (h : Settled chip unit addressBits dev (i+1) r)
    (heq : valueAt chip unit addressBits dev i=valueAt chip unit addressBits dev (i+1)) :
    ((countRead r 0 (valueAt chip unit addressBits dev (i+1))).stableCount=3 ∧
        ∃ k,i=k+1 ∧ StableAt chip unit addressBits dev k) ∨
      ((countRead r 0 (valueAt chip unit addressBits dev (i+1))).stableCount=2 ∧
        Settled chip unit addressBits dev (i+2)
          (countRead r 0 (valueAt chip unit addressBits dev (i+1)))) := by
  obtain ⟨hhave,hlast,hcount⟩ := h.later i rfl
  have hread : countRead r 0 (valueAt chip unit addressBits dev (i+1))=
      {r with stableCount := r.stableCount+1,ret := 0} := by
    unfold countRead
    rw [if_pos ⟨hhave,hlast.trans heq⟩]
  rw [hread]
  rcases hcount with ⟨hone,hchange⟩|⟨htwo,k,rfl,hequal⟩
  · right
    refine ⟨by change r.stableCount+1=2; rw [hone]; rfl,?_,fun h => absurd h (by omega),?_,
      Or.inl rfl⟩
    · intro k hk
      rcases Nat.lt_or_ge (i+1) (k+3) with hlt|hge
      · obtain rfl : i=k+1 := by omega
        exact fun hstable => hchange k rfl hstable.1
      · exact h.unstable k hge
    · intro i' hi'
      obtain rfl : i'=i+1 := by omega
      refine ⟨hhave,hlast.trans heq,Or.inr ⟨?_,i,rfl,heq⟩⟩
      change r.stableCount+1=2
      rw [hone]
      rfl
  · left
    refine ⟨by change r.stableCount+1=3; rw [htwo]; rfl,k,rfl,hequal,heq⟩

/-- What the reader returns, and where it leaves the chip. -/
structure ReadOutcome (chip : EepromChip σ) (unit : UInt32) (addressBits attempts : ℕ)
    (reply : ℤ×Option (List UInt8)) (s t : EepromPort σ) : Prop where
  /-- The first unit that three attempts in a row read is delivered. -/
  success : reply.1=0 → ∃ k,k+3≤attempts ∧ StableAt chip unit addressBits s.dev k ∧
    (∀ k'<k,¬StableAt chip unit addressBits s.dev k') ∧
    reply.2=some (valueAt chip unit addressBits s.dev k) ∧
    Attempted chip unit addressBits (k+3) s t
  /-- Else there were none. -/
  failure : reply.1≠0 → reply.1=-2 ∧
    (∀ k,k+3≤attempts → ¬StableAt chip unit addressBits s.dev k) ∧
    (∀ i,attempts=i+1 → reply.2=some (valueAt chip unit addressBits s.dev i)) ∧
    Attempted chip unit addressBits attempts s t

/-- The loop, from any of its attempts on. -/
theorem wp_readAttempts (hbits : addressBits=6 ∨ addressBits=14) {attempts n : ℕ}
    {r : StableReads} {s t : EepromPort σ}
    (hattempted : Attempted chip unit addressBits n s t)
    (hsettled : Settled chip unit addressBits s.dev n r) :
    wp (readAttempts chip unit addressBits attempts r) (fun reply u =>
      ReadOutcome chip unit addressBits (n+attempts) reply s u ∧ u.waitcnt=t.waitcnt) D t := by
  induction attempts generalizing n r t with
  | zero =>
    refine ⟨⟨fun h => ?_,fun _ => ⟨?_,hsettled.unstable,fun i hi => ?_,hattempted⟩⟩,rfl⟩
    · rcases hsettled.ret with hret|hret
      · simp [hret] at h
      · simp [hret] at h
    · rcases hsettled.ret with hret|hret
      · simp [hret]
      · simp [hret]
    · obtain ⟨hhave,hlast,-⟩ := hsettled.later i hi
      simp [hhave,hlast]
  | succ attempts ih =>
    unfold readAttempts
    refine wp_seq (wp_defaultEepromReadUnitOnce hbits) ?_
    rintro - u ⟨rfl,hdev,hwait,hsent⟩
    have hvalue : (readOnce chip unit addressBits t.dev).1=
        valueAt chip unit addressBits s.dev n := by rw [hattempted.dev]; rfl
    have hnext : Attempted chip unit addressBits (n+1) s u := by
      refine ⟨?_,?_⟩
      · rw [hdev,hattempted.dev,devAfter_succ]
      · rw [hsent,hattempted.sent,List.append_assoc,List.replicate_succ']
    have hgo {r' : StableReads} (hr : Settled chip unit addressBits s.dev (n+1) r') :
        wp (readAttempts chip unit addressBits attempts r') (fun reply v =>
          ReadOutcome chip unit addressBits (n+(attempts+1)) reply s v ∧
          v.waitcnt=t.waitcnt) D u := by
      have hcount : n+1+attempts=n+(attempts+1) := by omega
      rw [← hcount,← hwait]
      exact ih hnext hr
    have hone : ¬clCartGbaEepromStableReads≤(1 : UInt8) := by decide
    dsimp only
    rw [if_neg (by decide),hvalue]
    cases n with
    | zero =>
      obtain ⟨hread,hfirst⟩ := hsettled.start
      rw [hread,if_neg hone]
      exact hgo hfirst
    | succ i =>
      by_cases heq : valueAt chip unit addressBits s.dev i=
          valueAt chip unit addressBits s.dev (i+1)
      · rcases hsettled.same heq with ⟨hthree,k,rfl,hstable⟩|⟨htwo,hmore⟩
        · rw [hthree,if_pos (by decide)]
          refine ⟨⟨fun _ => ⟨k,by omega,hstable,fun k' hk' => ?_,?_,hnext⟩,
            fun h => absurd rfl h⟩,hwait⟩
          · exact hsettled.unstable k' (by omega)
          · rw [hstable.1,hstable.2]
        · rw [htwo,if_neg (by decide)]
          exact hgo hmore
      · obtain ⟨hread,hfirst⟩ := hsettled.other heq
        rw [hread,if_neg hone]
        exact hgo hfirst

/-- The default reader. -/
theorem wp_defaultEepromReadUnit (hbits : addressBits=6 ∨ addressBits=14)
    (s : EepromPort σ) :
    wp (defaultEepromReadUnit chip unit addressBits) (fun reply t =>
      ReadOutcome chip unit addressBits clCartGbaEepromReadAttempts reply s t ∧
      t.waitcnt=s.waitcnt) D s := by
  unfold defaultEepromReadUnit eepromWaitcntEnter eepromWaitcntRestore
  rw [if_neg (by omega),wp_bind,wp_access,wp_bind]
  have hstart : Settled chip unit addressBits s.dev 0 ⟨List.replicate 8 0,0,false,-2⟩ :=
    ⟨fun k hk => absurd hk (by omega),fun _ => rfl,fun i hi => absurd hi (by omega),
      Or.inr rfl⟩
  have hnone : Attempted chip unit addressBits 0 s
      {s with waitcnt := (s.waitcnt &&& ~~~0x0f00) ||| 0x0300} :=
    ⟨rfl,(List.append_nil s.sent).symm⟩
  refine wp_post (wp_readAttempts hbits hnone hstart) ?_
  rintro reply t ⟨houtcome,-⟩
  rw [Nat.zero_add] at houtcome
  rw [wp_bind,wp_update,wp_pure]
  refine ⟨⟨fun h => ?_,fun h => ?_⟩,rfl⟩
  · obtain ⟨k,hk,hstable,hfirst,hout,hdone⟩ := houtcome.success h
    exact ⟨k,hk,hstable,hfirst,hout,hdone.dev,hdone.sent⟩
  · obtain ⟨hret,hnever,hout,hdone⟩ := houtcome.failure h
    exact ⟨hret,hnever,hout,hdone.dev,hdone.sent⟩

end Reader

section Writer

variable {chip : EepromChip σ} {unit : UInt32} {addressBits : ℕ} {data : List UInt8}
  {D : EepromPort σ → Prop}

/-- Waiting sends nothing. -/
theorem wp_waitReady (n : ℕ) (s : EepromPort σ) :
    wp (waitReady chip n) (fun _ t => t.sent=s.sent ∧ t.waitcnt=s.waitcnt) D s := by
  induction n generalizing s with
  | zero => exact ⟨rfl,rfl⟩
  | succ n ih =>
    unfold waitReady
    rw [wp_bind,wp_access]
    dsimp only
    split_ifs
    · exact ⟨rfl,rfl⟩
    · exact ih {s with dev := (chip.read s.dev).2}

/-- What the writer returns: a unit that was written was read back three times in a row,
and every stream is one of two requests. -/
structure WriteOutcome (chip : EepromChip σ) (unit : UInt32) (addressBits : ℕ)
    (data : List UInt8) (ret : ℤ) (s t : EepromPort σ) : Prop where
  /-- There are two results. -/
  result : ret=0 ∨ ret=-2
  /-- The data were read back. -/
  verified : ret=0 → ∃ dev k,k+3≤ clCartGbaEepromReadAttempts ∧
    StableAt chip unit addressBits dev k ∧ valueAt chip unit addressBits dev k=data ∧
    t.dev=devAfter chip unit addressBits dev (k+3)
  /-- What was sent. -/
  sent : ∃ streams,t.sent=s.sent++streams ∧ ∀ stream∈streams,
    stream=writeRequest unit addressBits data ∨ stream=readRequest unit addressBits
  /-- The register is as it was. -/
  waitcnt : t.waitcnt=s.waitcnt

theorem wp_writeAttempts (hbits : addressBits=6 ∨ addressBits=14) (hdata : data.length=8)
    (attempts : ℕ) (s : EepromPort σ) :
    wp (writeAttempts chip unit addressBits data attempts)
      (fun ret t => WriteOutcome chip unit addressBits data ret s t) D s := by
  induction attempts generalizing s with
  | zero =>
    exact ⟨Or.inr rfl,fun h => absurd h (by decide),
      ⟨[],(List.append_nil s.sent).symm,fun _ hmem => absurd hmem List.not_mem_nil⟩,rfl⟩
  | succ attempts ih =>
    unfold writeAttempts
    refine wp_seq (wp_prepareWriteBits unit hbits hdata) ?_
    rintro - t ⟨hheld,hkept⟩
    unfold Kept at hkept
    refine wp_seq (wp_eepromDmaSend hheld
      (length_writeRequest unit addressBits hdata).symm (by omega)) ?_
    rintro - u rfl
    refine wp_seq (wp_waitReady _ _) ?_
    rintro ready v ⟨hsent,hwait⟩
    have hsent' : v.sent=s.sent++[writeRequest unit addressBits data] := by
      rw [hsent,hkept]
    have hwait' : v.waitcnt=s.waitcnt := by rw [hwait,hkept]
    -- a further attempt adds its streams behind those that were sent
    have hagain (w : EepromPort σ) {n : ℕ} (hw : w.sent=
        v.sent++List.replicate n (readRequest unit addressBits))
        (hwaitw : w.waitcnt=v.waitcnt) :
        wp (writeAttempts chip unit addressBits data attempts)
          (fun ret t => WriteOutcome chip unit addressBits data ret s t) D w := by
      refine wp_post (ih w) ?_
      rintro ret x ⟨hret,hverified,⟨streams,hstreams,hall⟩,hwaitx⟩
      refine ⟨hret,hverified,⟨writeRequest unit addressBits data::
        (List.replicate n (readRequest unit addressBits)++streams),?_,?_⟩,
        hwaitx.trans (hwaitw.trans hwait')⟩
      · rw [hstreams,hw,hsent']
        simp only [List.append_assoc,List.cons_append,List.nil_append]
      · intro stream hmem
        rcases List.mem_cons.mp hmem with rfl|hmem
        · exact Or.inl rfl
        · rcases List.mem_append.mp hmem with hmem|hmem
          · exact Or.inr (List.eq_of_mem_replicate hmem)
          · exact hall stream hmem
    split_ifs
    · exact hagain (n := 0) v (List.append_nil v.sent).symm rfl
    · refine wp_seq (wp_defaultEepromReadUnit hbits v) ?_
      rintro reply w ⟨houtcome,hwaitw⟩
      dsimp only
      split_ifs with hgood
      · obtain ⟨k,hk,hstable,-,hout,hdone⟩ := houtcome.success hgood.1
        refine ⟨Or.inl rfl,fun _ => ⟨v.dev,k,hk,hstable,?_,hdone.dev⟩,
          ⟨writeRequest unit addressBits data::
            List.replicate (k+3) (readRequest unit addressBits),?_,?_⟩,hwaitw.trans hwait'⟩
        · exact Option.some_injective _ (hout.symm.trans hgood.2)
        · rw [hdone.sent,hsent',List.append_assoc,List.singleton_append]
        · intro stream hmem
          rcases List.mem_cons.mp hmem with rfl|hmem
          · exact Or.inl rfl
          · exact Or.inr (List.eq_of_mem_replicate hmem)
      · by_cases hzero : reply.1=0
        · obtain ⟨k,-,-,-,-,hdone⟩ := houtcome.success hzero
          exact hagain w hdone.sent hwaitw
        · obtain ⟨-,-,-,hdone⟩ := houtcome.failure hzero
          exact hagain w hdone.sent hwaitw

/-- The default writer. -/
theorem wp_defaultEepromWriteUnit (hbits : addressBits=6 ∨ addressBits=14)
    (hdata : data.length=8) (s : EepromPort σ) :
    wp (defaultEepromWriteUnit chip unit addressBits data)
      (fun ret t => WriteOutcome chip unit addressBits data ret s t) D s := by
  unfold defaultEepromWriteUnit eepromWaitcntEnter eepromWaitcntRestore
  rw [if_neg (by omega),wp_bind,wp_access]
  refine wp_seq (wp_writeAttempts hbits hdata 3 _) ?_
  rintro ret t ⟨hret,hverified,hsent,-⟩
  exact ⟨hret,hverified,hsent,rfl⟩

/-- For a unit of a chip the buffer holds the command, the address and the data with their
highest bits first and a stop bit, all of it inside of the buffer, and the address tells the
unit. The bits of a unit give the unit, and every unit that is packed has the bits that were
received. The default reader is successful only with a unit that it read three times in a
row, and the default writer only with its data read back so. -/
theorem eeprom_units_exact {size : ℕ} (hsize : size=512 ∨ size=8192)
    (hunit : unit.toNat*clCartGbaEepromUnitSize<size) (hdata : data.length=8)
    (s : EepromPort σ) :
    ((readRequest unit (eepromAddressBits size)).length≤81 ∧
      wp (eepromPrepareReadBits unit (eepromAddressBits size)) (fun _ t =>
        t.bits.toList.take (eepromAddressBits size+3)=
          readRequest unit (eepromAddressBits size)) (fun _ => False) s) ∧
    ((writeRequest unit (eepromAddressBits size) data).length≤81 ∧
      wp (prepareWriteBits unit (eepromAddressBits size) data) (fun _ t =>
        t.bits.toList.take (2+eepromAddressBits size+64+1)=
          writeRequest unit (eepromAddressBits size) data) (fun _ => False) s) ∧
    ofMsbFirst (msbFirst (eepromAddressBits size) unit.toNat)=unit.toNat ∧
    (∀ halves,(halves.drop 4).map lowBit=byteBits data →
      eepromPackReadBits halves=data) ∧
    (∀ halves,halves.length=68 →
      byteBits (eepromPackReadBits halves)=(halves.drop 4).map lowBit) ∧
    wp (defaultEepromReadUnit chip unit (eepromAddressBits size)) (fun reply t =>
      ReadOutcome chip unit (eepromAddressBits size) clCartGbaEepromReadAttempts reply s t ∧
      t.waitcnt=s.waitcnt) (fun _ => False) s ∧
    wp (defaultEepromWriteUnit chip unit (eepromAddressBits size) data) (fun ret t =>
      WriteOutcome chip unit (eepromAddressBits size) data ret s t) (fun _ => False) s := by
  have hbits : eepromAddressBits size=6 ∨ eepromAddressBits size=14 := by
    rcases hsize with rfl|rfl
    · exact Or.inl rfl
    · exact Or.inr rfl
  have hread := length_readRequest unit (eepromAddressBits size)
  have hwrite := length_writeRequest unit (eepromAddressBits size) hdata
  refine ⟨⟨by omega,?_⟩,⟨by omega,?_⟩,address_value hsize hunit,
    fun halves h => eepromPackReadBits_eq hdata h,
    fun halves h => byteBits_eepromPackReadBits h,wp_defaultEepromReadUnit hbits s,
    wp_defaultEepromWriteUnit hbits hdata s⟩
  · refine wp_post (wp_eepromPrepareReadBits unit hbits) ?_
    rintro - t ⟨hheld,-⟩
    exact hheld.take hread
  · refine wp_post (wp_prepareWriteBits unit hbits hdata) ?_
    rintro - t ⟨hheld,-⟩
    exact hheld.take hwrite

/-- A chip with one unit, which forgets the address. -/
def oneUnit : EepromChip (List UInt8) where
  send halves stored :=
    if halves.length=73 then packBytes 8 (halves.drop 8) else stored
  recv _ stored := (fun i => ([0,0,0,0]++byteBits stored).getD i 0,stored)
  read stored := (1,stored)

/-- The last unit of the small size. -/
theorem eeprom_units_exact_small :
    (writeRequest 63 (eepromAddressBits 512) [1,2,3,4,5,6,7,8]).length≤81 ∧
    ofMsbFirst (msbFirst (eepromAddressBits 512) 63)=63 ∧
    ∀ halves : List UInt16,(halves.drop 4).map lowBit=byteBits [1,2,3,4,5,6,7,8] →
      eepromPackReadBits halves=[1,2,3,4,5,6,7,8] :=
  have h := @eeprom_units_exact _ oneUnit 63 [1,2,3,4,5,6,7,8] 512 (Or.inl rfl)
    (by decide) rfl ⟨[1,2,3,4,5,6,7,8],Vector.replicate 81 0,0,[]⟩
  ⟨h.2.1.1,h.2.2.1,h.2.2.2.1⟩

end Writer

end ChisLink.EepromUnits
