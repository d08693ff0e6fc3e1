import Mathlib.Data.Nat.Bitwise

/-!
# Bits on a serial line

A line carries a bit in the lowest position of a halfword. Numbers go over it with the
highest bit first, and bytes one after the other. A receiver that shifts the bits in gets
the numbers and the bytes back.
-/

namespace ChisLink.SerialBits

section Numbers

/-- The lowest bits of a number, the highest of them first. -/
def msbFirst : ℕ → ℕ → List UInt16
  | 0,_ => []
  | n+1,value => (if value.testBit n then 1 else 0)::msbFirst n value

/-- The number that a receiver has after the bits. -/
def ofMsbFirst (bits : List UInt16) : ℕ :=
  bits.foldl (fun value bit => 2*value+bit.toNat) 0

@[simp] theorem length_msbFirst (n value : ℕ) : (msbFirst n value).length=n := by
  induction n with
  | zero => rfl
  | succ n ih => rw [msbFirst,List.length_cons,ih]

/-- The bits by their positions. -/
theorem msbFirst_eq_range (n value : ℕ) :
    msbFirst n value=
      (List.range n).map fun i => if value.testBit (n-1-i) then 1 else 0 := by
  induction n with
  | zero => rfl
  | succ n ih =>
    rw [msbFirst,ih,List.range_succ_eq_map,List.map_cons,List.map_map]
    refine congrArg _ (List.map_congr_left fun i _ => ?_)
    have hpos : n+1-1-(i+1)=n-1-i := by omega
    simp only [Function.comp_apply,Nat.succ_eq_add_one,hpos]

theorem foldl_bits (bits : List UInt16) (start : ℕ) :
    bits.foldl (fun value bit => 2*value+bit.toNat) start=
      2^bits.length*start+ofMsbFirst bits := by
  unfold ofMsbFirst
  induction bits generalizing start with
  | nil =>
    rw [List.foldl_nil,List.foldl_nil,List.length_nil,Nat.pow_zero,Nat.one_mul,Nat.add_zero]
  | cons bit bits ih =>
    rw [List.foldl_cons,List.foldl_cons,ih,ih (2*0+bit.toNat),List.length_cons,Nat.pow_succ,
      Nat.mul_add,Nat.mul_zero,Nat.zero_add,Nat.mul_assoc,Nat.add_assoc]

/-- The first bit counts most. -/
theorem ofMsbFirst_cons (bit : UInt16) (bits : List UInt16) :
    ofMsbFirst (bit::bits)=2^bits.length*bit.toNat+ofMsbFirst bits := by
  rw [ofMsbFirst,List.foldl_cons,foldl_bits,Nat.mul_zero,Nat.zero_add]

/-- A number comes back as far as its bits were sent. -/
theorem ofMsbFirst_msbFirst (n value : ℕ) : ofMsbFirst (msbFirst n value)=value%2^n := by
  induction n with
  | zero => rw [Nat.pow_zero,Nat.mod_one]; rfl
  | succ n ih =>
    have hbit : (if value.testBit n then (1 : UInt16) else 0).toNat=value/2^n%2 := by
      rw [Nat.testBit_eq_decide_div_mod_eq]
      rcases Nat.mod_two_eq_zero_or_one (value/2^n) with h|h
      · rw [h]
        rfl
      · rw [h]
        rfl
    rw [msbFirst,ofMsbFirst_cons,ih,hbit,length_msbFirst,Nat.pow_succ,Nat.mod_mul,
      Nat.add_comm]

theorem ofMsbFirst_of_lt {n value : ℕ} (h : value<2^n) :
    ofMsbFirst (msbFirst n value)=value := by
  rw [ofMsbFirst_msbFirst,Nat.mod_eq_of_lt h]

theorem ofMsbFirst_lt {bits : List UInt16} (h : ∀ bit∈bits,bit=0 ∨ bit=1) :
    ofMsbFirst bits<2^bits.length := by
  induction bits with
  | nil => exact Nat.one_pos
  | cons bit bits ih =>
    have hrest := ih fun bit hmem => h bit (List.mem_cons_of_mem _ hmem)
    have hfirst : bit.toNat≤1 := by
      rcases h bit List.mem_cons_self with rfl|rfl
      · exact Nat.zero_le 1
      · exact Nat.le_refl 1
    have hmul := Nat.mul_le_mul_left (2^bits.length) hfirst
    rw [ofMsbFirst_cons,List.length_cons,Nat.pow_succ]
    omega

/-- Bits are those of the number that a receiver has after them. -/
theorem msbFirst_ofMsbFirst {bits : List UInt16} (h : ∀ bit∈bits,bit=0 ∨ bit=1) :
    msbFirst bits.length (ofMsbFirst bits)=bits := by
  induction bits with
  | nil => rfl
  | cons bit bits ih =>
    have hmem := fun bit hmem => h bit (List.mem_cons_of_mem _ hmem)
    have hlt := ofMsbFirst_lt hmem
    have hlow : msbFirst bits.length (2^bits.length*bit.toNat+ofMsbFirst bits)=
        msbFirst bits.length (ofMsbFirst bits) := by
      rw [msbFirst_eq_range,msbFirst_eq_range]
      refine List.map_congr_left fun i hi => ?_
      have hpos : bits.length-1-i<bits.length := by
        have := List.mem_range.mp hi
        omega
      rw [Nat.testBit_two_pow_mul_add _ hlt,if_pos hpos]
    rw [ofMsbFirst_cons,List.length_cons,msbFirst,hlow,ih hmem,
      Nat.testBit_two_pow_mul_add _ hlt,if_neg (Nat.lt_irrefl _),Nat.sub_self]
    rcases h bit List.mem_cons_self with rfl|rfl
    · rfl
    · rfl

end Numbers

section Bytes

/-- The bits of successive bytes. -/
def byteBits (data : List UInt8) : List UInt16 :=
  data.flatMap fun byte => msbFirst 8 byte.toNat

/-- The low bit of a halfword. -/
def lowBit (half : UInt16) : UInt16 := half &&& 1

/-- A byte of eight bits, shifted in one after the other. -/
def shiftIn (bits : List UInt16) : UInt8 :=
  bits.foldl (fun byte half => (byte <<< 1) ||| (half &&& 1).toUInt8) 0

@[simp] theorem length_byteBits (data : List UInt8) :
    (byteBits data).length=8*data.length := by
  unfold byteBits
  rw [List.length_flatMap,List.map_congr_left fun byte _ => length_msbFirst 8 byte.toNat]
  simp only [List.map_const',List.sum_replicate_nat,Nat.mul_comm]

theorem byteBits_cons (byte : UInt8) (data : List UInt8) :
    byteBits (byte::data)=msbFirst 8 byte.toNat++byteBits data := rfl

theorem lowBit_cases (half : UInt16) : lowBit half=0 ∨ lowBit half=1 := by
  have hnat : (lowBit half).toNat=half.toNat%2 := by
    rw [lowBit,UInt16.toNat_and]
    exact Nat.and_one_is_mod _
  rcases Nat.mod_two_eq_zero_or_one half.toNat with hzero|hone
  · exact Or.inl (UInt16.toNat_inj.mp (hnat.trans hzero))
  · exact Or.inr (UInt16.toNat_inj.mp (hnat.trans hone))

theorem shiftIn_lowBit (bits : List UInt16) : shiftIn (bits.map lowBit)=shiftIn bits := by
  have hlow : ∀ half : UInt16,lowBit half &&& 1=half &&& 1 := fun half => by
    rw [lowBit,UInt16.and_assoc]
    rfl
  unfold shiftIn
  rw [List.foldl_map]
  simp only [hlow]

/-- The bits of a byte give the byte. -/
theorem shiftIn_msbFirst (byte : UInt8) : shiftIn (msbFirst 8 byte.toNat)=byte := by
  have hbits : ∀ n<256,shiftIn (msbFirst 8 n)=UInt8.ofNat n := by decide +kernel
  rw [hbits _ byte.toNat_lt,UInt8.ofNat_toNat]

/-- Eight bits are the bits of the byte that they give. -/
theorem msbFirst_shiftIn {bits : List UInt16} (h : bits.length=8) :
    msbFirst 8 (shiftIn bits).toNat=bits.map lowBit := by
  have hbit : ∀ bit∈bits.map lowBit,bit=0 ∨ bit=1 := fun bit hmem => by
    obtain ⟨half,-,rfl⟩ := List.mem_map.mp hmem
    exact lowBit_cases half
  have hlength : (bits.map lowBit).length=8 := by rw [List.length_map,h]
  have hbits := msbFirst_ofMsbFirst hbit
  have hlt := ofMsbFirst_lt hbit
  rw [hlength] at hbits hlt
  have hvalue : (UInt8.ofNat (ofMsbFirst (bits.map lowBit))).toNat=
      ofMsbFirst (bits.map lowBit) := UInt8.toNat_ofNat_of_lt' hlt
  have hbyte := shiftIn_msbFirst (UInt8.ofNat (ofMsbFirst (bits.map lowBit)))
  rw [hvalue,hbits,shiftIn_lowBit] at hbyte
  rw [hbyte,hvalue,hbits]

end Bytes

end ChisLink.SerialBits
