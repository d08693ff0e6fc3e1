import ChisLink.SioAgreement

/-!
# Payload words in video memory

The bus of video memory has no byte stores. The bridge writes a received word with one
store where it is aligned and complete, and with halfwords that are read, changed and
written back otherwise. What is in memory then is what byte stores would have left there.
-/

namespace ChisLink.VideoMemoryStores

open WireProtocol SioMemory
open SioAgreement (writeBytes_append storeLe32_eq_take)
open StorageClient (StoreCall payloadBytes writerCalls)

section Bus

/-- A halfword is loaded from an even address. -/
def loadHalf (memory : Memory) (address : UInt32) : Option UInt16 :=
  if address &&& 1=0 then
    some ((memory address).toUInt16 ||| ((memory (address+1)).toUInt16 <<< 8))
  else none

/-- A halfword is stored at an even address. -/
def storeHalf (address : UInt32) (value : UInt16) (memory : Memory) : Option Memory :=
  if address &&& 1=0 then
    some (writeBytes address [value.toUInt8,(value >>> 8).toUInt8] memory)
  else none

/-- A word is stored at an address that is a multiple of four. -/
def storeWord (address word : UInt32) (memory : Memory) : Option Memory :=
  if address &&& 3=0 then some (writeBytes address (storeLe32 word 4) memory) else none

end Bus

section Bridge

/-- The halfword with the first byte of a word as its high byte. -/
def withHighByte (value : UInt16) (word : UInt32) : UInt16 :=
  UInt32.toUInt16 ((value.toUInt32 &&& (0x00ff : UInt32)) ||| ((word &&& (0xff : UInt32)) <<< 8))

/-- The halfword with the first byte of a word as its low byte. -/
def withLowByte (value : UInt16) (word : UInt32) : UInt16 :=
  UInt32.toUInt16 ((value.toUInt32 &&& 0xff00) ||| (word &&& 0xff))

/-- The loop of `bridge_store_payload_word`: the address `at`, the valid bytes that are
left and what is left of the word. -/
def storeHalves (address : UInt32) : ℕ → UInt32 → Memory → Option Memory
  | 0,_,memory => some memory
  | left+1,word,memory => do
    let half := address &&& ~~~1
    let value ← loadHalf memory half
    if address &&& 1≠0 then
      let memory ← storeHalf half (withHighByte value word) memory
      storeHalves (address+1) left (word >>> 8) memory
    else
      let value := withLowByte value word
      let word := word >>> 8
      match left with
      | 0 => storeHalf half value memory
      | left+1 =>
        let memory ← storeHalf half (withHighByte value word) memory
        storeHalves (address+2) left (word >>> 8) memory

/-- The function `bridge_store_payload_word`. -/
def bridgeStorePayloadWord (ctx : UInt32) (call : StoreCall) (memory : Memory) :
    Option Memory :=
  let address := ctx+UInt32.ofNat call.offset
  if address &&& 3=0 ∧ call.validBytes=4 then storeWord address call.word memory
  else storeHalves address call.validBytes call.word memory

/-- Calls of `bridge_store_payload_word` one after the other, each with its context. -/
def bridgeStorePayloadWords : List (UInt32×StoreCall) → Memory → Option Memory
  | [],memory => some memory
  | (ctx,call)::calls,memory => do
    let memory ← bridgeStorePayloadWord ctx call memory
    bridgeStorePayloadWords calls memory

end Bridge

section Bits

/-- The masks of a byte in a byte and in a halfword. -/
theorem mask_bits : ∀ i (hi : i<8),(255#8)[i]=true ∧ (255#16).getLsbD i=true ∧
    (255#16).getLsbD (8+i)=false ∧ (65280#16).getLsbD (8+i)=true := by decide

/-- The mask that makes an address even. -/
theorem even_mask : ∀ i (hi : i<32),(4294967294#32)[i]=!decide (i=0) := by decide

/-- The low byte stays where the high byte is replaced. -/
@[simp] theorem withHighByte_low (value : UInt16) (word : UInt32) :
    (withHighByte value word).toUInt8=value.toUInt8 := by
  apply UInt8.eq_of_toBitVec_eq
  ext i hi
  simp [withHighByte,mask_bits i hi]

@[simp] theorem withHighByte_high (value : UInt16) (word : UInt32) :
    (withHighByte value word >>> 8).toUInt8=word.toUInt8 := by
  apply UInt8.eq_of_toBitVec_eq
  ext i hi
  have hhalf : 8+i<16 := by omega
  have hlow : i<16 := by omega
  simp only [withHighByte,UInt16.toBitVec_toUInt8,UInt16.toBitVec_shiftRight]
  simp [mask_bits i hi]
  rw [decide_eq_true hhalf,decide_eq_true hlow,Bool.true_and,Bool.true_and]

/-- The high byte stays where the low byte is replaced. -/
@[simp] theorem withLowByte_high (value : UInt16) (word : UInt32) :
    (withLowByte value word >>> 8).toUInt8=(value >>> 8).toUInt8 := by
  apply UInt8.eq_of_toBitVec_eq
  ext i hi
  simp [withLowByte,mask_bits i hi]

@[simp] theorem withLowByte_low (value : UInt16) (word : UInt32) :
    (withLowByte value word).toUInt8=word.toUInt8 := by
  apply UInt8.eq_of_toBitVec_eq
  ext i hi
  simp [withLowByte,mask_bits i hi]

/-- The low byte of a halfword of two bytes. -/
theorem half_low (low high : UInt8) :
    (low.toUInt16 ||| (high.toUInt16 <<< 8)).toUInt8=low := by
  apply UInt8.eq_of_toBitVec_eq
  ext i hi
  simp

/-- The high byte of a halfword of two bytes. -/
theorem half_high (low high : UInt8) :
    ((low.toUInt16 ||| (high.toUInt16 <<< 8)) >>> 8).toUInt8=high := by
  apply UInt8.eq_of_toBitVec_eq
  ext i hi
  have hhalf : 8+i<16 := by omega
  have hlow : i<16 := by omega
  simp [hhalf,hlow,BitVec.getLsbD_eq_getElem hi]

/-- An even address is its own halfword. -/
theorem half_of_even {address : UInt32} (h : address &&& 1=0) :
    address &&& ~~~1=address := by
  apply UInt32.eq_of_toBitVec_eq
  have hbit := congrArg (fun word => word.toBitVec[0]) h
  ext i hi
  simp at hbit
  simp [even_mask i hi]
  rintro hset rfl
  exact absurd hset (by rw [hbit]; exact Bool.false_ne_true)

/-- An odd address is the high byte of its halfword. -/
theorem half_of_odd {address : UInt32} (h : address &&& 1≠0) :
    (address &&& ~~~1)+1=address := by
  have hone : address &&& 1=1 := by
    apply UInt32.toNat_inj.mp
    have hnat : (address &&& 1).toNat=address.toNat%2 := by
      rw [UInt32.toNat_and]
      exact Nat.and_one_is_mod _
    have hne : (address &&& 1).toNat≠0 := fun hzero => h (UInt32.toNat_inj.mp hzero)
    rw [hnat] at hne ⊢
    exact Nat.mod_two_ne_zero.mp hne
  calc (address &&& ~~~1)+1=(address &&& ~~~1)+(address &&& 1) := by rw [hone]
    _=address := by
      apply UInt32.eq_of_toBitVec_eq
      rw [UInt32.toBitVec_add,BitVec.add_eq_or_of_and_eq_zero]
      · ext i hi
        simp [even_mask i hi]
        cases address.toBitVec[i] <;> simp
      · ext i hi
        simp [even_mask i hi]
        exact fun _ hne _ => hne

/-- The address of a halfword is even. -/
theorem half_even (address : UInt32) : address &&& ~~~1 &&& 1=0 := by
  apply UInt32.eq_of_toBitVec_eq
  ext i hi
  simp [even_mask i hi]

end Bits

section Specification

/-- The bytes that a call is to leave, from its address on. -/
def storeBytes (ctx : UInt32) (call : StoreCall) (memory : Memory) : Memory :=
  writeBytes (ctx+UInt32.ofNat call.offset) (storeLe32 call.word call.validBytes) memory

/-- Byte stores for a sequence of calls. -/
def storesBytes (calls : List (UInt32×StoreCall)) (memory : Memory) : Memory :=
  calls.foldl (fun memory call => storeBytes call.1 call.2 memory) memory

/-- The first bytes of a word. -/
def wordBytes : ℕ → UInt32 → List UInt8
  | 0,_ => []
  | left+1,word => word.toUInt8::wordBytes left (word >>> 8)

/-- They are the little-endian bytes of the word. -/
theorem wordBytes_eq {valid : ℕ} (hvalid : valid≤4) (word : UInt32) :
    wordBytes valid word=storeLe32 word valid := by
  have htwo : word >>> 8 >>> 8=word >>> 16 := by
    apply UInt32.eq_of_toBitVec_eq
    ext i hi
    simp
  have hthree : word >>> 16 >>> 8=word >>> 24 := by
    apply UInt32.eq_of_toBitVec_eq
    ext i hi
    simp
  interval_cases valid <;> simp [wordBytes,storeLe32,List.range_succ,htwo,hthree]

/-- What memory holds after bytes were written. -/
theorem writeBytes_apply {bytes : List UInt8} (hbytes : bytes.length≤2^32)
    (dst : UInt32) (memory : Memory) (address : UInt32) :
    writeBytes dst bytes memory address=
      (bytes[(address-dst).toNat]?).getD (memory address) := by
  induction bytes generalizing dst memory with
  | nil => rfl
  | cons byte rest ih =>
    rw [List.length_cons] at hbytes
    rw [writeBytes,ih (by omega)]
    have hone : (1 : UInt32).toNat=1 := rfl
    have hsub := UInt32.toNat_sub address (dst+1)
    rw [UInt32.toNat_add,hone] at hsub
    have hdst := dst.toNat_lt
    by_cases hfirst : address=dst
    · have hlast : (address-(dst+1)).toNat=2^32-1 := by
        rw [hfirst] at hsub ⊢
        omega
      rw [hlast,List.getElem?_eq_none (by omega),hfirst,UInt32.sub_self]
      exact Function.update_self _ _ _
    · have hnext : (address-dst).toNat=(address-(dst+1)).toNat+1 := by
        have hne : address.toNat≠dst.toNat := fun heq => hfirst (UInt32.toNat_inj.mp heq)
        have haddress := address.toNat_lt
        rw [hsub,UInt32.toNat_sub]
        omega
      rw [hnext,List.getElem?_cons_succ,Function.update_of_ne hfirst]

/-- The bytes of a list are in memory from an address on, the others are as they were. -/
structure Stored (dst : UInt32) (bytes : List UInt8) (before after : Memory) : Prop where
  /-- The bytes that were written. -/
  inside : ∀ k (hk : k<bytes.length),after (dst+UInt32.ofNat k)=bytes[k]
  /-- The neighbours. -/
  outside : ∀ address,(∀ k<bytes.length,address≠dst+UInt32.ofNat k) →
    after address=before address

theorem stored_writeBytes {bytes : List UInt8} (hbytes : bytes.length≤2^32)
    (dst : UInt32) (memory : Memory) :
    Stored dst bytes memory (writeBytes dst bytes memory) := by
  constructor
  · intro k hk
    have hat : (dst+UInt32.ofNat k-dst).toNat=k := by
      rw [UInt32.add_comm,UInt32.add_sub_cancel]
      exact UInt32.toNat_ofNat_of_lt' (Nat.lt_of_lt_of_le hk hbytes)
    rw [writeBytes_apply hbytes,hat,List.getElem?_eq_getElem hk,Option.getD_some]
  · intro address hout
    have hat : address=dst+UInt32.ofNat (address-dst).toNat := by
      rw [UInt32.ofNat_toNat,UInt32.add_comm,UInt32.sub_add_cancel]
    have hlength : bytes.length≤(address-dst).toNat :=
      Nat.le_of_not_lt fun hlt => hout _ hlt hat
    rw [writeBytes_apply hbytes,List.getElem?_eq_none hlength,Option.getD_none]

theorem length_storeLe32 {valid : ℕ} (hvalid : valid≤4) (word : UInt32) :
    (storeLe32 word valid).length=valid := by
  rw [storeLe32,List.length_map,List.length_range,Nat.min_eq_right hvalid]

/-- What a call is to leave. -/
theorem stored_storeBytes {call : StoreCall} (hvalid : call.validBytes≤4) (ctx : UInt32)
    (memory : Memory) :
    Stored (ctx+UInt32.ofNat call.offset) (storeLe32 call.word call.validBytes) memory
      (storeBytes ctx call memory) :=
  stored_writeBytes (by rw [length_storeLe32 hvalid]; omega) _ _

/-- An address that no call reaches keeps its byte. -/
theorem storesBytes_outside {calls : List (UInt32×StoreCall)}
    (hvalid : ∀ call∈calls,call.2.validBytes≤4) {address : UInt32}
    (hout : ∀ call∈calls,∀ k<call.2.validBytes,
      address≠call.1+UInt32.ofNat call.2.offset+UInt32.ofNat k) (memory : Memory) :
    storesBytes calls memory address=memory address := by
  induction calls generalizing memory with
  | nil => rfl
  | cons call calls ih =>
    have hfirst := hvalid call List.mem_cons_self
    calc storesBytes (call::calls) memory address
        =storesBytes calls (storeBytes call.1 call.2 memory) address := rfl
      _=storeBytes call.1 call.2 memory address :=
        ih (fun call hmem => hvalid call (List.mem_cons_of_mem _ hmem))
          (fun call hmem => hout call (List.mem_cons_of_mem _ hmem)) _
      _=memory address := by
        refine (stored_storeBytes hfirst call.1 memory).outside address fun k hk => ?_
        rw [length_storeLe32 hfirst] at hk
        exact hout call List.mem_cons_self k hk

end Specification

section Payload

/-- The calls for a payload and the bytes it has, a word more. -/
theorem writerCalls_append (words : List UInt32) (word length : UInt32) :
    writerCalls (words++[word]) length=writerCalls words length++
      [⟨4*words.length,word,min 4 (length.toNat-4*words.length)⟩] := by
  unfold writerCalls
  rw [List.zipIdx_append,List.map_append,Nat.zero_add]
  rfl

theorem length_flatMap_storeLe32 (words : List UInt32) :
    (words.flatMap fun word => storeLe32 word 4).length=4*words.length := by
  have hfour : ∀ word,(storeLe32 word 4).length=4 := fun _ => rfl
  rw [List.length_flatMap,List.map_congr_left fun word _ => hfour word]
  simp only [List.map_const',List.sum_replicate_nat,Nat.mul_comm]

theorem payloadBytes_append (words : List UInt32) (word length : UInt32) :
    payloadBytes (words++[word]) length=payloadBytes words length++
      storeLe32 word (min 4 (length.toNat-4*words.length)) := by
  unfold payloadBytes
  rw [List.flatMap_append,List.take_append,length_flatMap_storeLe32,
    List.flatMap_singleton,storeLe32_eq_take word (min _ _)]
  have hwhole : (storeLe32 word 4).take 4=storeLe32 word 4 := rfl
  rw [Nat.min_comm,← List.take_take,hwhole]

theorem length_payloadBytes (words : List UInt32) (length : UInt32) :
    (payloadBytes words length).length=min length.toNat (4*words.length) := by
  rw [payloadBytes,List.length_take,length_flatMap_storeLe32]

/-- The calls of a payload write its bytes. -/
theorem storesBytes_writerCalls (words : List UInt32) (ctx length : UInt32)
    (memory : Memory) :
    storesBytes ((writerCalls words length).map (Prod.mk ctx)) memory=
      writeBytes ctx (payloadBytes words length) memory := by
  induction words using List.reverseRecOn with
  | nil =>
    have hnil : payloadBytes [] length=[] := List.take_nil
    rw [hnil]
    rfl
  | append_singleton words word ih =>
    rw [writerCalls_append,payloadBytes_append,writeBytes_append,← ih,List.map_append,
      storesBytes,List.foldl_append,length_payloadBytes]
    rcases Nat.le_total (4*words.length) length.toNat with hroom|hfull
    · rw [Nat.min_eq_right hroom]
      rfl
    · -- behind the end of the payload nothing is written
      have hzero : min 4 (length.toNat-4*words.length)=0 := by omega
      rw [hzero]
      rfl

theorem validBytes_writerCalls {words : List UInt32} {length ctx : UInt32} :
    ∀ call∈(writerCalls words length).map (Prod.mk ctx),call.2.validBytes≤4 := by
  intro call hmem
  obtain ⟨stored,hstored,rfl⟩ := List.mem_map.mp hmem
  obtain ⟨entry,-,rfl⟩ := List.mem_map.mp hstored
  exact Nat.min_le_left _ _

end Payload

section Stores

/-- An odd address: the byte is written. -/
theorem storeHalf_odd {address : UInt32} (h : address &&& 1≠0) (word : UInt32)
    (memory : Memory) :
    ∃ value,loadHalf memory (address &&& ~~~1)=some value ∧
      storeHalf (address &&& ~~~1) (withHighByte value word) memory=
        some (Function.update memory address word.toUInt8) := by
  refine ⟨_,if_pos (half_even address),?_⟩
  rw [storeHalf,if_pos (half_even address),withHighByte_low,withHighByte_high,half_low]
  rw [writeBytes,writeBytes,writeBytes,half_of_odd h,Function.update_eq_self]

/-- An even address, the last byte of the word: the byte is written. -/
theorem storeHalf_even {address : UInt32} (h : address &&& 1=0) (word : UInt32)
    (memory : Memory) :
    ∃ value,loadHalf memory (address &&& ~~~1)=some value ∧
      storeHalf (address &&& ~~~1) (withLowByte value word) memory=
        some (Function.update memory address word.toUInt8) := by
  have hne : address+1≠address := fun heq => by simp at heq
  refine ⟨_,if_pos (half_even address),?_⟩
  rw [half_of_even h,storeHalf,if_pos h,withLowByte_low,withLowByte_high,half_high]
  have hkept : memory (address+1)=
      Function.update memory address word.toUInt8 (address+1) :=
    (Function.update_of_ne hne _ _).symm
  rw [writeBytes,writeBytes,writeBytes,hkept,Function.update_eq_self]

/-- An even address and a byte behind: both are written. -/
theorem storeHalf_both {address : UInt32} (h : address &&& 1=0) (word next : UInt32)
    (memory : Memory) :
    ∃ value,loadHalf memory (address &&& ~~~1)=some value ∧
      storeHalf (address &&& ~~~1) (withHighByte (withLowByte value word) next) memory=
        some (writeBytes address [word.toUInt8,next.toUInt8] memory) := by
  refine ⟨_,if_pos (half_even address),?_⟩
  rw [half_of_even h,storeHalf,if_pos h,withHighByte_low,withHighByte_high,withLowByte_low]

/-- The loop writes the bytes of the word. -/
theorem storeHalves_bytes (left : ℕ) (address word : UInt32) (memory : Memory) :
    storeHalves address left word memory=
      some (writeBytes address (wordBytes left word) memory) := by
  induction left using Nat.strong_induction_on generalizing address word memory with
  | h left ih =>
    match left with
    | 0 => rfl
    | left+1 =>
      by_cases hodd : address &&& 1=0
      · match left with
        | 0 =>
          obtain ⟨value,hload,hstore⟩ := storeHalf_even hodd word memory
          simp only [storeHalves,hload,hodd,ne_eq,not_true_eq_false,if_false,
            Option.bind_eq_bind,Option.bind_some,hstore]
          rfl
        | left+1 =>
          obtain ⟨value,hload,hstore⟩ := storeHalf_both hodd word (word >>> 8) memory
          have hnext : address+2=address+1+1 := by rw [UInt32.add_assoc]; rfl
          simp only [storeHalves,hload,hodd,ne_eq,not_true_eq_false,if_false,
            Option.bind_eq_bind,Option.bind_some,hstore]
          rw [ih left (by omega),hnext]
          rfl
      · obtain ⟨value,hload,hstore⟩ := storeHalf_odd hodd word memory
        simp only [storeHalves,hload,hodd,ne_eq,not_false_eq_true,if_true,
          Option.bind_eq_bind,Option.bind_some,hstore]
        rw [ih left (by omega)]
        rfl

/-- A call writes the valid bytes of its word. -/
theorem bridgeStorePayloadWord_bytes {call : StoreCall} (hvalid : call.validBytes≤4)
    (ctx : UInt32) (memory : Memory) :
    bridgeStorePayloadWord ctx call memory=some (storeBytes ctx call memory) := by
  unfold bridgeStorePayloadWord
  dsimp only
  split_ifs with hword
  · rw [storeWord,if_pos hword.1,storeBytes,hword.2]
  · rw [storeHalves_bytes,wordBytes_eq hvalid]
    rfl

/-- A sequence of calls writes the valid bytes of its words. -/
theorem bridgeStorePayloadWords_bytes {calls : List (UInt32×StoreCall)}
    (hvalid : ∀ call∈calls,call.2.validBytes≤4) (memory : Memory) :
    bridgeStorePayloadWords calls memory=some (storesBytes calls memory) := by
  induction calls generalizing memory with
  | nil => rfl
  | cons call calls ih =>
    obtain ⟨ctx,call⟩ := call
    have hcall := bridgeStorePayloadWord_bytes (hvalid _ List.mem_cons_self) ctx memory
    simp only [bridgeStorePayloadWords,hcall,Option.bind_eq_bind,Option.bind_some]
    exact ih (fun call hmem => hvalid call (List.mem_cons_of_mem _ hmem)) _

/-- A call changes its valid bytes to the bytes of the word, in little-endian order,
and nothing else. A sequence of calls is a sequence of byte stores, and for the calls of
a payload its bytes are in memory behind it and all others as before. -/
theorem halfword_stores_exact :
    (∀ ctx call memory,1≤ call.validBytes → call.validBytes≤4 →
      ∃ after,bridgeStorePayloadWord ctx call memory=some after ∧
        (∀ k<call.validBytes,
          after (ctx+UInt32.ofNat call.offset+UInt32.ofNat k)=
            (call.word >>> UInt32.ofNat (k*8)).toUInt8) ∧
        ∀ address,(∀ k<call.validBytes,
            address≠ctx+UInt32.ofNat call.offset+UInt32.ofNat k) →
          after address=memory address) ∧
    (∀ calls memory,
      (∀ call∈calls,1≤ call.2.validBytes ∧ call.2.validBytes≤4) →
      ∃ after,bridgeStorePayloadWords calls memory=some after ∧
        after=storesBytes calls memory ∧
        ∀ address,(∀ call∈calls,∀ k<call.2.validBytes,
            address≠call.1+UInt32.ofNat call.2.offset+UInt32.ofNat k) →
          after address=memory address) ∧
    ∀ ctx words length memory,
      ∃ after,bridgeStorePayloadWords ((writerCalls words length).map (Prod.mk ctx))
          memory=some after ∧
        Stored ctx (payloadBytes words length) memory after := by
  refine ⟨fun ctx call memory _ hvalid => ?_,fun calls memory hvalid => ?_,
    fun ctx words length memory => ?_⟩
  · have hstored := stored_storeBytes hvalid ctx memory
    have hlength := length_storeLe32 hvalid call.word
    refine ⟨_,bridgeStorePayloadWord_bytes hvalid ctx memory,fun k hk => ?_,
      fun address hout => ?_⟩
    · rw [hstored.inside k (by omega)]
      simp only [storeLe32,List.getElem_map,List.getElem_range]
    · exact hstored.outside address fun k hk => hout k (by omega)
  · have hle : ∀ call∈calls,call.2.validBytes≤4 := fun call hmem => (hvalid call hmem).2
    exact ⟨_,bridgeStorePayloadWords_bytes hle memory,rfl,
      fun address hout => storesBytes_outside hle hout memory⟩
  · have hlength : (payloadBytes words length).length≤2^32 := by
      rw [length_payloadBytes]
      have := length.toNat_lt
      omega
    refine ⟨_,bridgeStorePayloadWords_bytes validBytes_writerCalls memory,?_⟩
    rw [storesBytes_writerCalls]
    exact stored_writeBytes hlength ctx memory

/-- Three bytes at an odd address: the neighbours on both sides keep theirs. -/
example : (bridgeStorePayloadWord 0x06000001 ⟨0,0x44332211,3⟩ fun _ => 0xee).map
    (fun memory => bytesFrom memory 0x06000000 5)=
      some [0xee,0x11,0x22,0x33,0xee] := by decide

end Stores

end ChisLink.VideoMemoryStores
