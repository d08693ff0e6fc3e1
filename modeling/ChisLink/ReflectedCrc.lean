import Mathlib.Data.Nat.Bits
import Mathlib.Tactic.Ring

/-!
# Reflected cyclic redundancy checks

A reflected check of any width moves its remainder down one place a bit and adds
the polynomial if a one falls out. This is linear in exclusive or, so that several
steps of a remainder are those of its low places and the rest of it moved down. A
table of the low places therefore serves for as many bits as it has places.
-/

namespace ChisLink.ReflectedCrc

variable {w : ℕ}

/-- One step of the remainder. -/
def shiftStep (polynomial x : BitVec w) : BitVec w :=
  if x.getLsbD 0 then (x >>> 1) ^^^ polynomial else x >>> 1

/-- Several steps of the remainder. -/
def shifts (polynomial : BitVec w) : ℕ → BitVec w → BitVec w
  | 0,x => x
  | n+1,x => shifts polynomial n (shiftStep polynomial x)

/-- The low places of a remainder. -/
def lowPlaces (k : ℕ) (x : BitVec w) : BitVec w := x &&& BitVec.ofNat w (2^k-1)

theorem shiftStep_xor (polynomial x y : BitVec w) :
    shiftStep polynomial (x ^^^ y)=shiftStep polynomial x ^^^ shiftStep polynomial y := by
  unfold shiftStep
  simp only [BitVec.getLsbD_xor,BitVec.ushiftRight_xor_distrib]
  cases x.getLsbD 0 <;> cases y.getLsbD 0
  · simp
  · simp [BitVec.xor_assoc]
  · simp only [Bool.true_xor,Bool.not_false,if_true,Bool.false_eq_true,if_false]
    rw [BitVec.xor_assoc,BitVec.xor_comm (y >>> 1) polynomial,←BitVec.xor_assoc]
  · simp only [Bool.true_xor,Bool.not_true,if_true,Bool.false_eq_true,if_false]
    rw [BitVec.xor_comm (y >>> 1) polynomial,←BitVec.xor_assoc,
      BitVec.xor_assoc (x >>> 1) polynomial polynomial,BitVec.xor_self,BitVec.xor_zero]

/-- Any number of steps is linear. -/
theorem shifts_xor (polynomial : BitVec w) (n : ℕ) (x y : BitVec w) :
    shifts polynomial n (x ^^^ y)=shifts polynomial n x ^^^ shifts polynomial n y := by
  induction n generalizing x y with
  | zero => rfl
  | succ n ih =>
    unfold shifts
    rw [shiftStep_xor]
    exact ih _ _

/-- A remainder with clear low places only moves down. -/
theorem shifts_of_clear (polynomial : BitVec w) (n : ℕ) (x : BitVec w)
    (h : ∀ i<n,x.getLsbD i=false) : shifts polynomial n x=x >>> n := by
  induction n generalizing x with
  | zero => exact (BitVec.ushiftRight_zero x).symm
  | succ n ih =>
    have hstep : shiftStep polynomial x=x >>> 1 := by
      unfold shiftStep
      rw [h 0 (by omega)]
      rfl
    unfold shifts
    rw [hstep,ih (x >>> 1)]
    · rw [←BitVec.shiftRight_add,Nat.add_comm 1 n]
    · intro i hi
      rw [BitVec.getLsbD_ushiftRight]
      exact h (1+i) (by omega)

theorem getLsbD_lowPlaces {k : ℕ} (x : BitVec w) (i : ℕ) :
    (lowPlaces k x).getLsbD i=(decide (i<k) && x.getLsbD i) := by
  unfold lowPlaces
  rw [BitVec.getLsbD_and,BitVec.getLsbD_ofNat,Nat.testBit_two_pow_sub_one]
  by_cases hi : i<w
  · rw [decide_eq_true hi,Bool.true_and,Bool.and_comm]
  · rw [BitVec.getLsbD_of_ge x i (by omega),Bool.false_and,Bool.and_false]

/-- Steps by a table: those of the low places, and the rest moved down. -/
theorem shifts_eq_table (polynomial : BitVec w) (k : ℕ) (x : BitVec w) :
    shifts polynomial k x=shifts polynomial k (lowPlaces k x) ^^^ (x >>> k) := by
  have hrest : ∀ i,(x ^^^ lowPlaces k x).getLsbD i=(!decide (i<k) && x.getLsbD i) := by
    intro i
    rw [BitVec.getLsbD_xor,getLsbD_lowPlaces]
    by_cases hi : i<k
    · rw [decide_eq_true hi,Bool.true_and,Bool.xor_self,Bool.not_true,Bool.false_and]
    · rw [decide_eq_false hi,Bool.false_and,Bool.xor_false,Bool.not_false,Bool.true_and]
  have hsplit : x=lowPlaces k x ^^^ (x ^^^ lowPlaces k x) := by
    rw [BitVec.xor_comm x,←BitVec.xor_assoc,BitVec.xor_self,BitVec.zero_xor]
  have hclear : ∀ i<k,(x ^^^ lowPlaces k x).getLsbD i=false := by
    intro i hi
    rw [hrest,decide_eq_true hi,Bool.not_true,Bool.false_and]
  have hmoved : (x ^^^ lowPlaces k x) >>> k=x >>> k := by
    apply BitVec.eq_of_getLsbD_eq
    intro i _
    rw [BitVec.getLsbD_ushiftRight,BitVec.getLsbD_ushiftRight,hrest,
      decide_eq_false (by omega),Bool.not_false,Bool.true_and]
  have hlinear := shifts_xor polynomial k (lowPlaces k x) (x ^^^ lowPlaces k x)
  rw [←hsplit,shifts_of_clear polynomial k _ hclear,hmoved] at hlinear
  exact hlinear

/-- The remainder for one more bit of a message. -/
def bitStep (polynomial x : BitVec w) (bit : Bool) : BitVec w :=
  shiftStep polynomial (x ^^^ (BitVec.ofBool bit).setWidth w)

/-- The remainder for more bits, one after the other. -/
def bitSteps (polynomial x : BitVec w) (bits : List Bool) : BitVec w :=
  bits.foldl (bitStep polynomial) x

/-- The low bits of a value, from the lowest on. -/
def lowBits (k : ℕ) (y : BitVec w) : List Bool := (List.range k).map y.getLsbD

theorem lowBits_succ (k : ℕ) (y : BitVec w) :
    lowBits (k+1) y=y.getLsbD 0::lowBits k (y >>> 1) := by
  unfold lowBits
  rw [List.range_succ_eq_map,List.map_cons,List.map_map]
  congr 1
  refine List.map_congr_left fun i _ => ?_
  rw [BitVec.getLsbD_ushiftRight]
  exact congrArg y.getLsbD (Nat.add_comm i 1)

/-- Adding a value before a step is adding its lowest bit before and the rest after it. -/
theorem shiftStep_add (polynomial x y : BitVec w) :
    shiftStep polynomial (x ^^^ y)=bitStep polynomial x (y.getLsbD 0) ^^^ (y >>> 1) := by
  obtain ⟨b,hb⟩ : ∃ b,b=(BitVec.ofBool (y.getLsbD 0)).setWidth w := ⟨_,rfl⟩
  have hbit : ∀ i,i<w → b.getLsbD i=(decide (i=0) && y.getLsbD 0) := by
    intro i hi
    rw [hb,BitVec.getLsbD_setWidth,decide_eq_true hi,Bool.true_and,BitVec.getLsbD_ofBool]
  have hclear : ∀ i<1,(y ^^^ b).getLsbD i=false := by
    intro i hi
    obtain rfl : i=0 := by omega
    rw [BitVec.getLsbD_xor]
    by_cases hw : 0<w
    · rw [hbit 0 hw,decide_eq_true rfl,Bool.true_and,Bool.xor_self]
    · rw [BitVec.getLsbD_of_ge y 0 (by omega),BitVec.getLsbD_of_ge b 0 (by omega),Bool.xor_self]
  have hrest : (y ^^^ b) >>> 1=y >>> 1 := by
    apply BitVec.eq_of_getLsbD_eq
    intro i hi
    rw [BitVec.getLsbD_ushiftRight,BitVec.getLsbD_ushiftRight,BitVec.getLsbD_xor]
    by_cases hw : 1+i<w
    · rw [hbit (1+i) hw,decide_eq_false (by omega),Bool.false_and,Bool.xor_false]
    · rw [BitVec.getLsbD_of_ge b (1+i) (by omega),Bool.xor_false]
  have hmoved : shiftStep polynomial (y ^^^ b)=y >>> 1 := by
    have hshift := shifts_of_clear polynomial 1 (y ^^^ b) hclear
    rw [hrest] at hshift
    exact hshift
  have hsplit : x ^^^ y=(x ^^^ b) ^^^ (y ^^^ b) := by
    rw [BitVec.xor_comm y b,BitVec.xor_assoc,←BitVec.xor_assoc b b y,BitVec.xor_self,
      BitVec.zero_xor]
  rw [hsplit,shiftStep_xor,hmoved]
  unfold bitStep
  rw [hb]

/-- Adding a value and stepping over all its bits is taking its bits one after the other. -/
theorem shifts_add (polynomial : BitVec w) (k : ℕ) (x y : BitVec w) (hy : y >>> k=0#w) :
    shifts polynomial k (x ^^^ y)=bitSteps polynomial x (lowBits k y) := by
  induction k generalizing x y with
  | zero =>
    rw [BitVec.ushiftRight_zero] at hy
    rw [hy,BitVec.xor_zero]
    rfl
  | succ k ih =>
    have hrest : y >>> 1 >>> k=0#w := by
      rw [←BitVec.shiftRight_add,Nat.add_comm 1 k]
      exact hy
    rw [lowBits_succ,shifts,shiftStep_add,ih _ _ hrest]
    rfl

theorem bitSteps_append (polynomial x : BitVec w) (a b : List Bool) :
    bitSteps polynomial x (a++b)=bitSteps polynomial (bitSteps polynomial x a) b :=
  List.foldl_append

end ChisLink.ReflectedCrc
