import Mathlib.Data.List.Basic
import ChisLink.ReflectedCrc

/-!
# CRC-32

The check is kept as the state of a remainder. A byte is taken through a table of
the remainders of all bytes, which is the same as taking its eight bits one by one.
-/

namespace ChisLink.Crc32

open ReflectedCrc

/-- The polynomial, reflected. -/
def clCrc32Polynomial : UInt32 := 0xedb88320

/-- One bit of an entry of the table. -/
def tableBit (value : UInt32) : UInt32 :=
  (value >>> 1) ^^^ (if value &&& 1≠0 then clCrc32Polynomial else 0)

/-- The table `g_crc32_table`, at an index. -/
def crc32Table (i : UInt32) : UInt32 := tableBit^[8] i

/-- The state for one more byte. -/
def crcByte (state : UInt32) (byte : UInt8) : UInt32 :=
  crc32Table ((state ^^^ byte.toUInt32) &&& 0xff) ^^^ (state >>> 8)

/-- The function `cl_crc32_init`. -/
def clCrc32Init : UInt32 := 0xffffffff

/-- The function `cl_crc32_update`. -/
def clCrc32Update (state : UInt32) (data : List UInt8) : UInt32 := data.foldl crcByte state

/-- The function `cl_crc32_finalize`. -/
def clCrc32Finalize (state : UInt32) : UInt32 := ~~~state

/-- The function `cl_crc32_calculate`. -/
def clCrc32Calculate (data : List UInt8) : UInt32 :=
  clCrc32Finalize (clCrc32Update clCrc32Init data)

/-- Nothing is taken without a byte. -/
@[simp] theorem clCrc32Update_nil (state : UInt32) : clCrc32Update state []=state := rfl

/-- Data may be taken in two parts. -/
theorem clCrc32Update_append (state : UInt32) (a b : List UInt8) :
    clCrc32Update state (a++b)=clCrc32Update (clCrc32Update state a) b := List.foldl_append

/-- The state for one more byte, bit by bit. -/
def crcByteBitwise (state : UInt32) (byte : UInt8) : BitVec 32 :=
  shifts clCrc32Polynomial.toBitVec 8 (state ^^^ byte.toUInt32).toBitVec

theorem low_bit (value : UInt32) : value &&& 1≠0 ↔ value.toBitVec.getLsbD 0=true := by
  have hbit : (value &&& 1).toBitVec=
      BitVec.setWidth 32 (BitVec.ofBool (value.toBitVec.getLsbD 0)) := by
    rw [UInt32.toBitVec_and]
    exact BitVec.and_one_eq_setWidth_ofBool_getLsbD
  cases hb : value.toBitVec.getLsbD 0 with
  | false =>
    rw [hb] at hbit
    have hzero : value &&& 1=0 := UInt32.toBitVec_inj.mp hbit
    simp [hzero]
  | true =>
    rw [hb] at hbit
    have hone : value &&& 1=1 := UInt32.toBitVec_inj.mp hbit
    simp [hone]

theorem toBitVec_tableBit (value : UInt32) :
    (tableBit value).toBitVec=shiftStep clCrc32Polynomial.toBitVec value.toBitVec := by
  unfold tableBit shiftStep
  by_cases h : value &&& 1≠0
  · rw [if_pos h,if_pos ((low_bit value).mp h)]
    rfl
  · rw [if_neg h,if_neg (fun hb => h ((low_bit value).mpr hb)),UInt32.xor_zero]
    rfl

theorem toBitVec_tableBit_iterate (n : ℕ) (value : UInt32) :
    (tableBit^[n] value).toBitVec=shifts clCrc32Polynomial.toBitVec n value.toBitVec := by
  induction n generalizing value with
  | zero => rfl
  | succ n ih =>
    rw [Function.iterate_succ_apply,ih,toBitVec_tableBit]
    rfl

/-- The table takes a byte as its bits one by one would be taken. -/
theorem toBitVec_crcByte (state : UInt32) (byte : UInt8) :
    (crcByte state byte).toBitVec=crcByteBitwise state byte := by
  have hlow : ((state ^^^ byte.toUInt32) &&& 0xff).toBitVec=
      lowPlaces 8 (state ^^^ byte.toUInt32).toBitVec := rfl
  have hbyte : byte.toUInt32.toBitVec >>> 8=0#32 := by
    apply BitVec.eq_of_getLsbD_eq
    intro i _
    have hsmall : byte.toUInt32.toBitVec=byte.toBitVec.setWidth 32 := rfl
    rw [BitVec.getLsbD_ushiftRight,hsmall,BitVec.getLsbD_setWidth,
      BitVec.getLsbD_of_ge byte.toBitVec (8+i) (by omega),Bool.and_false]
    exact (BitVec.getLsbD_zero).symm
  have hshift : (state ^^^ byte.toUInt32).toBitVec >>> 8=state.toBitVec >>> 8 := by
    rw [UInt32.toBitVec_xor,BitVec.ushiftRight_xor_distrib,hbyte,BitVec.xor_zero]
  unfold crcByteBitwise
  rw [shifts_eq_table,hshift,←hlow]
  unfold crcByte crc32Table
  rw [UInt32.toBitVec_xor,toBitVec_tableBit_iterate]
  rfl

/-- The check value of the nine digits. -/
example : clCrc32Calculate [49,50,51,52,53,54,55,56,57]=0xcbf43926 := by decide +kernel

end ChisLink.Crc32
