import ChisLink.Crc32
import ChisLink.LabelledRuns

/-!
# The table of the CRC-32

The table is filled when a check is begun for the first time. From then on an update by
the table is, for every running value, the check of the bits of the data one after the
other, the lowest bit of each byte first.
-/

namespace ChisLink.Crc32Table

open Crc32 LabelledRuns ReflectedCrc

/-- The table and whether it was filled, and the running values of the checks there are. -/
structure CrcState where
  /-- The array `g_crc32_table`. -/
  table : ℕ → UInt32
  /-- The flag `g_crc32_table_ready`. -/
  ready : Bool
  /-- The running values. -/
  states : ℕ → UInt32

/-- Entries of the table. -/
def tableSize : ℕ := 256

/-- The function `crc32_prepare_table`. -/
def crc32PrepareTable (s : CrcState) : CrcState :=
  if s.ready=true then s
  else { s with
    table := fun i => if i<tableSize then tableBit^[8] (UInt32.ofNat i) else s.table i
    ready := true }

/-- The function `cl_crc32_init`. -/
def clCrc32InitAt (k : ℕ) (s : CrcState) : CrcState :=
  {crc32PrepareTable s with states := Function.update s.states k 0xffffffff}

/-- One round of the loop of `cl_crc32_update`. -/
def tableStep (table : ℕ → UInt32) (state : UInt32) (byte : UInt8) : UInt32 :=
  table ((state ^^^ byte.toUInt32) &&& 0xff).toNat ^^^ (state >>> 8)

/-- The function `cl_crc32_update`. -/
def clCrc32UpdateAt (k : ℕ) (data : List UInt8) (s : CrcState) : CrcState :=
  {s with states := Function.update s.states k (data.foldl (tableStep s.table) (s.states k))}

/-- The function `cl_crc32_finalize`. -/
def clCrc32FinalizeAt (k : ℕ) (s : CrcState) : UInt32 := ~~~(s.states k)

/-- The calls. -/
inductive CrcCall where
  /-- Begin a check. -/
  | init (k : ℕ)
  /-- Take data into it. -/
  | update (k : ℕ) (data : List UInt8)
  /-- A running value of the caller's own. -/
  | set (k : ℕ) (state : UInt32)

/-- The state after a call. -/
def callCrc (s : CrcState) : CrcCall → Option CrcState
  | .init k => some (clCrc32InitAt k s)
  | .update k data => some (clCrc32UpdateAt k data s)
  | .set k state => some {s with states := Function.update s.states k state}

/-- The state of a program that begins. -/
def bootState (states : ℕ → UInt32) : CrcState := ⟨fun _ => 0,false,states⟩

section Bits

/-- The bits of a message, the lowest bit of each byte first. -/
def messageBits (data : List UInt8) : List Bool := data.flatMap fun byte => lowBits 8 byte.toBitVec

/-- The remainder of a message, bit by bit. -/
def bitwiseCrc (state : UInt32) (data : List UInt8) : BitVec 32 :=
  bitSteps clCrc32Polynomial.toBitVec state.toBitVec (messageBits data)

theorem lowBits_toUInt32 (byte : UInt8) :
    lowBits 8 byte.toUInt32.toBitVec=lowBits 8 byte.toBitVec := by
  unfold lowBits
  refine List.map_congr_left fun i hi => ?_
  have hlt := List.mem_range.mp hi
  have hsmall : byte.toUInt32.toBitVec=byte.toBitVec.setWidth 32 := rfl
  rw [hsmall,BitVec.getLsbD_setWidth,decide_eq_true (by omega),Bool.true_and]

/-- A byte is taken as its bits one after the other. -/
theorem crcByteBitwise_eq (state : UInt32) (byte : UInt8) :
    crcByteBitwise state byte=
      bitSteps clCrc32Polynomial.toBitVec state.toBitVec (lowBits 8 byte.toBitVec) := by
  have hbyte : byte.toUInt32.toBitVec >>> 8=0#32 := by
    apply BitVec.eq_of_toNat_eq
    have hlt := byte.toNat_lt
    have hsame : byte.toUInt32.toBitVec.toNat=byte.toNat := rfl
    rw [BitVec.toNat_ushiftRight,hsame,Nat.shiftRight_eq_div_pow,Nat.div_eq_of_lt hlt]
    rfl
  unfold crcByteBitwise
  rw [UInt32.toBitVec_xor,shifts_add _ 8 _ _ hbyte,lowBits_toUInt32]

/-- So is a message, of any length. -/
theorem clCrc32Update_bitwise (state : UInt32) (data : List UInt8) :
    (clCrc32Update state data).toBitVec=bitwiseCrc state data := by
  induction data generalizing state with
  | nil => rfl
  | cons byte data ih =>
    have hfirst := (toBitVec_crcByte state byte).trans (crcByteBitwise_eq state byte)
    have hrest := ih (crcByte state byte)
    unfold bitwiseCrc messageBits at hrest ⊢
    rw [List.flatMap_cons,bitSteps_append,←hfirst,←hrest]
    rfl

end Bits

section Table

/-- The table is filled if the flag says so. -/
def Filled (s : CrcState) : Prop :=
  s.ready=true → ∀ i : UInt32,s.table (i &&& 0xff).toNat=crc32Table (i &&& 0xff)

variable {s : CrcState}

theorem low_lt (i : UInt32) : (i &&& 0xff).toNat<tableSize := by
  rw [UInt32.toNat_and]
  exact Nat.lt_of_le_of_lt Nat.and_le_right (by decide)

theorem filled_prepare (hs : Filled s) :
    Filled (crc32PrepareTable s) ∧ (crc32PrepareTable s).ready=true := by
  unfold crc32PrepareTable
  split
  next hready => exact ⟨hs,hready⟩
  · refine ⟨fun _ i => ?_,rfl⟩
    dsimp only
    rw [if_pos (low_lt i),UInt32.ofNat_toNat]
    rfl

/-- An update by the filled table. -/
theorem foldl_tableStep (hs : Filled s) (hready : s.ready=true) (state : UInt32)
    (data : List UInt8) : data.foldl (tableStep s.table) state=clCrc32Update state data := by
  have hstep : tableStep s.table=crcByte := by
    funext state byte
    unfold tableStep crcByte
    rw [hs hready]
  rw [hstep]
  rfl

theorem filled_callCrc (hs : Filled s) (call : CrcCall) {t : CrcState}
    (ht : callCrc s call=some t) : Filled t := by
  cases call with
  | init k =>
    cases ht
    exact (filled_prepare hs).1
  | update k data =>
    cases ht
    exact hs
  | set k state =>
    cases ht
    exact hs

/-- A filled table stays, and beginning a check fills it. -/
theorem ready_callCrc {call : CrcCall} {t : CrcState} (ht : callCrc s call=some t) :
    (s.ready=true ∨ ∃ k,call=.init k) → t.ready=true := by
  have hprepared : (crc32PrepareTable s).ready=true := by
    unfold crc32PrepareTable
    split
    next hready => exact hready
    · rfl
  intro h
  cases call with
  | init k =>
    cases ht
    exact hprepared
  | update k data =>
    cases ht
    exact h.elim id fun ⟨_,hinit⟩ => CrcCall.noConfusion hinit
  | set k state =>
    cases ht
    exact h.elim id fun ⟨_,hinit⟩ => CrcCall.noConfusion hinit

/-- What is right of a call: an update, once a check was begun, is that of the bits, and may
be made in two parts. -/
def Exact (s : CrcState) : CrcCall → Prop
  | .update k data => s.ready=true →
    ((clCrc32UpdateAt k data s).states k).toBitVec=bitwiseCrc (s.states k) data ∧
    ∀ a b,data=a++b → clCrc32UpdateAt k b (clCrc32UpdateAt k a s)=clCrc32UpdateAt k data s
  | .init k => (clCrc32InitAt k s).ready=true ∧
    ∀ data,(clCrc32FinalizeAt k (clCrc32UpdateAt k data (clCrc32InitAt k s))).toBitVec=
      ~~~(bitwiseCrc 0xffffffff data)
  | .set _ _ => True

theorem exact_of_filled (hs : Filled s) (call : CrcCall) : Exact s call := by
  cases call with
  | init k =>
    obtain ⟨hfilled,hready⟩ := filled_prepare hs
    refine ⟨hready,fun data => ?_⟩
    have hupdate : (clCrc32UpdateAt k data (clCrc32InitAt k s)).states k=
        clCrc32Update 0xffffffff data := by
      have hfold := foldl_tableStep (s := clCrc32InitAt k s) hfilled hready
      have hstate : (clCrc32InitAt k s).states k=0xffffffff := Function.update_self _ _ _
      unfold clCrc32UpdateAt
      dsimp only
      rw [Function.update_self,hfold,hstate]
    unfold clCrc32FinalizeAt
    rw [hupdate,←clCrc32Update_bitwise]
    rfl
  | update k data =>
    intro hready
    have hfold := foldl_tableStep hs hready
    refine ⟨?_,?_⟩
    · unfold clCrc32UpdateAt
      dsimp only
      rw [Function.update_self,hfold]
      exact clCrc32Update_bitwise _ data
    · rintro a b rfl
      unfold clCrc32UpdateAt
      dsimp only
      rw [Function.update_self,Function.update_idem,List.foldl_append]
  | set k state => trivial

/-- In every run of calls, whatever the running values, every update when the table is filled
is the check of the bits of its data, in one part or in two, and beginning, updating and
finalizing gives the check of the whole. The table is filled once a check was begun. -/
theorem table_crc_exact (states : ℕ → UInt32) (trace : List (CrcState×CrcCall))
    (last : CrcState) (run : Run callCrc (bootState states) trace last) :
    EveryStep Exact trace ∧
      ((∃ entry∈trace,∃ k,entry.2=CrcCall.init k) → last.ready=true) := by
  have hall := run.always (fun h => absurd h Bool.false_ne_true)
    fun s call t hs ht => filled_callCrc hs call ht
  refine ⟨fun entry hentry => exact_of_filled (hall.1 entry hentry) entry.2,?_⟩
  clear hall
  induction run with
  | nil => exact fun ⟨entry,hentry,_⟩ => absurd hentry List.not_mem_nil
  | snoc run henabled ih =>
    rintro ⟨entry,hentry,k,hinit⟩
    refine ready_callCrc henabled ?_
    rcases List.mem_append.mp hentry with hold | hnew
    · exact Or.inl (ih ⟨entry,hold,k,hinit⟩)
    · rw [List.mem_singleton.mp hnew] at hinit
      exact Or.inr ⟨k,hinit⟩

/-- The run that begins one check. -/
theorem table_crc_exact_first :
    EveryStep Exact [(bootState fun _ => 0,.init 0)] ∧
      ((∃ entry∈[(bootState fun _ => 0,CrcCall.init 0)],∃ k,entry.2=CrcCall.init k) →
        (clCrc32InitAt 0 (bootState fun _ => 0)).ready=true) :=
  table_crc_exact (fun _ => 0) _ _ (Run.nil.snoc rfl)

end Table

end ChisLink.Crc32Table
