import ChisLink.CartSaveProbe
import Mathlib.Data.Nat.Bitwise

/-!
# Bounds of the search for a batteryless save

The search for a batteryless save follows offsets that it finds in the ROM. Here it runs in
machine words and notes every byte of the ROM that it reads. It ends, comes to what the
driver takes from it, and reads nothing outside of the ROM.
-/

namespace ChisLink.BatterylessBounds

open CartSaveDriver CartSaveProbe DriverPrograms
open CartSaveArrays (SramChip sramHardware)

variable {σ : Type}

section Search

variable (hw : CartHardware σ) (ctx : CartCtx) (d : σ)

/-- Offsets of the two bytes of a halfword. -/
def halfwordBytes (offset : UInt32) : List ℕ := [offset.toNat/2*2,offset.toNat/2*2+1]

/-- Read a halfword of the ROM and note its bytes. -/
def notedRead16 (offset : UInt32) : Prog (List ℕ) UInt16 :=
  access fun noted => (romRead16 hw ctx d offset.toNat,noted++halfwordBytes offset)

/-- Read a byte of the ROM, out of its halfword. -/
def notedRead8 (offset : UInt32) : Prog (List ℕ) UInt8 :=
  access fun noted => (romRead8 hw ctx d offset.toNat,noted++halfwordBytes offset)

/-- Read two halfwords. -/
def notedRead32 (offset : UInt32) : Prog (List ℕ) UInt32 := do
  let low ← notedRead16 hw ctx d offset
  let high ← notedRead16 hw ctx d (offset+2)
  pure (low.toUInt32 ||| high.toUInt32 <<< 16)

/-- Compare the ROM with the signature up to the first difference. -/
def foundSig (addr : UInt32) : List UInt8 → UInt32 → Prog (List ℕ) Bool
  | [],_ => pure true
  | b::sig,i => do
    let value ← notedRead8 hw ctx d (addr+i)
    if value≠b then pure false else foundSig addr sig (i+1)

/-- The loop that looks for the signature. -/
def searchSig (searchEnd : UInt32) : ℕ → UInt32 → Prog (List ℕ) (Option UInt32)
  | 0,_ => fun noted => (none,noted)
  | fuel+1,addr =>
    if addr+14<searchEnd then do
      let found ← foundSig hw ctx d addr maniacSig 0
      if found then pure (some addr) else searchSig searchEnd fuel (addr+2)
    else pure none

/-- What follows a signature that was found. -/
def notedDescribe (romSize bootVector addr : UInt32) (probe : SaveProbe) :
    Prog (List ℕ) (Bool×SaveProbe) := do
  let word ← notedRead16 hw ctx d (addr+0x0e)
  let payloadSize : UInt32 := if word=0 then 0x414 else word.toUInt32
  let offset := addr-bootVector+bootVector+0x10
  let probe := {probe with batterylessOffset := offset.toNat}
  if offset<payloadSize ∨ romSize<offset then pure (false,probe)
  else
    let payloadStart := offset-payloadSize
    if romSize<payloadStart+0x14 then pure (false,probe)
    else do
      let ctrlFlag ← notedRead32 hw ctx d (payloadStart+0x4)
      let sizeWord ← notedRead32 hw ctx d (payloadStart+0x8)
      let size := sizeWord &&& 0xfffff000
      let probe := { probe with
        batterylessSize := size.toNat
        batterylessWriteBufferSize := (sizeWord &&& 0xfff).toNat }
      if 0x70000<size then
        if ctrlFlag=0xf0 then do
          let rtsSize ← notedRead32 hw ctx d (payloadStart+0xc)
          let bufferSize ← notedRead32 hw ctx d (payloadStart+0x10)
          pure (false,{ probe with
            batterylessRtsSize := rtsSize.toNat
            batterylessWriteBufferSize := bufferSize.toNat
            isBatterylessRts := true })
        else pure (false,{probe with isBatterylessRts := true})
      else pure (size≠0,probe)

/-- The function `check_batteryless_sram` in machine words, with so many rounds of its loop
at most. -/
def notedCheck (romSize : UInt32) (rounds : ℕ) (probe : SaveProbe) :
    Prog (List ℕ) (Bool×SaveProbe) := do
  let boot ← notedRead32 hw ctx d 0
  let bootVector := ((boot &&& 0x00ffffff)+2) <<< 2
  if romSize≤bootVector ∨ romSize<bootVector+0x2000 then pure (false,probe)
  else do
    match ← searchSig hw ctx d (bootVector+0x2000) rounds bootVector with
    | none => pure (false,probe)
    | some addr => notedDescribe hw ctx d romSize bootVector addr probe

end Search

section Reads

variable {hw : CartHardware σ} {ctx : CartCtx} {d : σ} {offset : UInt32} {n : ℕ} {noted : List ℕ}

/-- All bytes that were read lie below a bound. -/
def Below (n : ℕ) (noted : List ℕ) : Prop := ∀ i∈noted,i<n

theorem toNat_sum {x k : UInt32} (h : x.toNat+k.toNat<2^32) : (x+k).toNat=x.toNat+k.toNat := by
  rw [UInt32.toNat_add,Nat.mod_eq_of_lt h]

/-- The size in a word. -/
theorem toNat_sizePart (word : UInt32) :
    (word &&& 0xfffff000).toNat=word.toNat/0x1000*0x1000 := by
  have hword := word.toNat_lt
  rw [UInt32.toNat_and]
  change word.toNat &&& (2^20-1)*2^12=word.toNat/2^12*2^12
  refine Nat.eq_of_testBit_eq fun i => ?_
  rw [Nat.testBit_and,Nat.testBit_mul_two_pow,Nat.testBit_mul_two_pow,Nat.testBit_two_pow_sub_one,
    Nat.testBit_div_two_pow]
  by_cases hlow : 12≤ i
  · have hback : i-12+12=i := by omega
    by_cases hhigh : i-12<20
    · simp [hlow,hhigh,hback]
    · have hclear : word.toNat.testBit i=false := by
        refine Nat.testBit_lt_two_pow (Nat.lt_of_lt_of_le hword ?_)
        exact Nat.pow_le_pow_right (by decide) (by omega)
      simp [hlow,hback,hclear]
  · simp [hlow]

/-- The rest of the word. -/
theorem toNat_bufferPart (word : UInt32) : (word &&& 0xfff).toNat=word.toNat%0x1000 := by
  rw [UInt32.toNat_and]
  exact Nat.and_two_pow_sub_one_eq_mod word.toNat 12

theorem Below.halfword (h : Below n noted) (hin : offset.toNat/2*2+1<n) :
    Below n (noted++halfwordBytes offset) := by
  intro i hi
  rcases List.mem_append.mp hi with hi | hi
  · exact h i hi
  · simp only [halfwordBytes,List.mem_cons,List.not_mem_nil,or_false] at hi
    omega

theorem wp_notedRead16 (hin : offset.toNat/2*2+1<n) (h : Below n noted) :
    wp (notedRead16 hw ctx d offset)
      (fun value now => value=romRead16 hw ctx d offset.toNat ∧ Below n now)
      (fun _ => False) noted :=
  ⟨rfl,h.halfword hin⟩

theorem wp_notedRead8 (hin : offset.toNat/2*2+1<n) (h : Below n noted) :
    wp (notedRead8 hw ctx d offset)
      (fun value now => value=romRead8 hw ctx d offset.toNat ∧ Below n now)
      (fun _ => False) noted :=
  ⟨rfl,h.halfword hin⟩

theorem toNat_joined (low high : UInt16) :
    (low.toUInt32 ||| high.toUInt32 <<< 16).toNat=low.toNat+high.toNat*0x10000 := by
  have hlow := low.toNat_lt
  have hhigh := high.toNat_lt
  have hshift : high.toNat <<< 16%2^32=high.toNat <<< 16 := by
    rw [Nat.shiftLeft_eq]
    omega
  have hplain : (low.toUInt32 ||| high.toUInt32 <<< 16).toNat=
      low.toNat ||| high.toNat <<< 16%2^32 := by
    rw [UInt32.toNat_or,UInt32.toNat_shiftLeft,UInt16.toNat_toUInt32,UInt16.toNat_toUInt32]
    rfl
  rw [hplain,hshift,Nat.or_comm,← Nat.shiftLeft_add_eq_or_of_lt hlow,Nat.shiftLeft_eq,Nat.add_comm]

theorem wp_notedRead32 (hsmall : n<2^32) (hin : offset.toNat+3<n) (h : Below n noted) :
    wp (notedRead32 hw ctx d offset)
      (fun value now => value.toNat=romRead32 hw ctx d offset.toNat ∧ Below n now)
      (fun _ => False) noted := by
  have hnext : (offset+2).toNat=offset.toNat+2 := toNat_sum (Nat.lt_trans (by
    change offset.toNat+2<n
    omega) hsmall)
  unfold notedRead32
  refine wp_seq (wp_notedRead16 (by omega) h) ?_
  rintro low now ⟨rfl,hlow⟩
  refine wp_seq (wp_notedRead16 (by omega) hlow) ?_
  rintro high now ⟨rfl,hhigh⟩
  refine ⟨?_,hhigh⟩
  rw [toNat_joined,hnext]
  rfl

end Reads

section Bounds

variable {hw : CartHardware σ} {ctx : CartCtx} {d : σ} {n : ℕ} {noted : List ℕ}

/-- Whether the signature is at an address. -/
def SigAt (hw : CartHardware σ) (ctx : CartCtx) (d : σ) (sig : List UInt8) (address : ℕ) : Prop :=
  (List.range' address sig.length).map (romRead8 hw ctx d)=sig

theorem wp_foundSig {addr i : UInt32} {sig : List UInt8} (hsmall : n<2^32)
    (hin : addr.toNat+i.toNat+sig.length<n) (h : Below n noted) :
    wp (foundSig hw ctx d addr sig i)
      (fun found now => (found=true ↔ SigAt hw ctx d sig (addr.toNat+i.toNat)) ∧ Below n now)
      (fun _ => False) noted := by
  induction sig generalizing i noted with
  | nil => exact ⟨⟨fun _ => rfl,fun _ => rfl⟩,h⟩
  | cons b sig ih =>
    rw [List.length_cons] at hin
    have hat : (addr+i).toNat=addr.toNat+i.toNat := toNat_sum (by omega)
    have hnext : (i+1).toNat=i.toNat+1 := toNat_sum (by
      change i.toNat+1<2^32
      omega)
    have hsplit : SigAt hw ctx d (b::sig) (addr.toNat+i.toNat) ↔
        romRead8 hw ctx d (addr.toNat+i.toNat)=b ∧ SigAt hw ctx d sig (addr.toNat+(i+1).toNat) := by
      unfold SigAt
      rw [List.length_cons,List.range'_succ,List.map_cons,List.cons.injEq,hnext,Nat.add_assoc]
    unfold foundSig
    refine wp_seq (wp_notedRead8 (by omega) h) ?_
    rintro value now ⟨rfl,hnow⟩
    rw [hat,hsplit]
    by_cases hsame : romRead8 hw ctx d (addr.toNat+i.toNat)=b
    · rw [if_neg (not_not.mpr hsame)]
      refine wp_post (ih (by omega) hnow) ?_
      rintro found now ⟨hfound,hnow⟩
      exact ⟨hfound.trans (and_iff_right hsame).symm,hnow⟩
    · rw [if_pos hsame]
      exact ⟨⟨fun h => (by cases h),fun h => absurd h.1 hsame⟩,hnow⟩

/-- The loop finds the first address of the signature. -/
theorem wp_searchSig {searchEnd addr : UInt32} {rounds fuel : ℕ}
    (hroom : searchEnd.toNat+16<2^32) (hend : searchEnd.toNat≤n) (hsmall : n<2^32)
    (hrounds : addr.toNat+2*rounds=searchEnd.toNat) (hfuel : rounds<fuel) (h : Below n noted) :
    wp (searchSig hw ctx d searchEnd fuel addr)
      (fun found now => found.map UInt32.toNat=(List.range' addr.toNat rounds 2).find?
          (fun address => address+maniacSig.length<searchEnd.toNat ∧
            (List.range' address maniacSig.length).map (romRead8 hw ctx d)=maniacSig) ∧
        (∀ a,found=some a → a.toNat+14<searchEnd.toNat ∧ a.toNat%2=addr.toNat%2 ∧
          addr.toNat≤a.toNat) ∧
        Below n now)
      (fun _ => False) noted := by
  have hsig : maniacSig.length=14 := by decide
  rw [hsig]
  induction rounds generalizing addr fuel noted with
  | zero =>
    obtain ⟨fuel,rfl⟩ : ∃ k,fuel=k+1 := ⟨fuel-1,by omega⟩
    have hsum : (addr+14).toNat=addr.toNat+14 := toNat_sum (by
      change addr.toNat+14<2^32
      omega)
    have hover : ¬addr+14<searchEnd := by
      rw [UInt32.lt_iff_toNat_lt]
      omega
    unfold searchSig
    rw [if_neg hover]
    exact ⟨rfl,fun a h => (by cases h),h⟩
  | succ rounds ih =>
    obtain ⟨fuel,rfl⟩ : ∃ k,fuel=k+1 := ⟨fuel-1,by omega⟩
    have hsum : (addr+14).toNat=addr.toNat+14 := toNat_sum (by
      change addr.toNat+14<2^32
      omega)
    have hnext : (addr+2).toNat=addr.toNat+2 := toNat_sum (by
      change addr.toNat+2<2^32
      omega)
    unfold searchSig
    rw [List.range'_succ]
    by_cases hover : addr+14<searchEnd
    · rw [if_pos hover,wp_bind]
      rw [UInt32.lt_iff_toNat_lt,hsum] at hover
      have hzero : (0 : UInt32).toNat=0 := rfl
      refine wp_post (wp_foundSig hsmall (i := 0) (by rw [hsig,hzero]; omega) h) ?_
      rintro found now ⟨hfound,hnow⟩
      rw [hzero,Nat.add_zero] at hfound
      unfold SigAt at hfound
      rw [hsig] at hfound
      split
      next hsame =>
        have hfirst := hfound.mp hsame
        refine ⟨?_,fun a ha => ?_,hnow⟩
        · rw [List.find?_cons_of_pos (by simpa [hover] using hfirst)]
          rfl
        · cases ha
          exact ⟨hover,rfl,le_refl _⟩
      next hsame =>
        have hother : ¬(List.range' addr.toNat 14).map (romRead8 hw ctx d)=maniacSig :=
          fun h => hsame (hfound.mpr h)
        refine wp_post (ih (by omega) (by omega) hnow) ?_
        rintro result now ⟨hresult,hplace,hnow⟩
        rw [hnext] at hresult hplace
        refine ⟨?_,fun a ha => ?_,hnow⟩
        · rw [List.find?_cons_of_neg (by simpa using fun _ => hother)]
          exact hresult
        · obtain ⟨hbelow,hparity,hle⟩ := hplace a ha
          exact ⟨hbelow,by omega,by omega⟩
    · rw [if_neg hover]
      rw [UInt32.lt_iff_toNat_lt,hsum] at hover
      refine ⟨Eq.symm (List.find?_eq_none.mpr fun x hx => ?_),fun a ha => (by cases ha),h⟩
      have hle : addr.toNat≤x := by
        rcases List.mem_cons.mp hx with rfl | hx
        · exact le_refl _
        · obtain ⟨k,-,hk⟩ := List.mem_range'.mp hx
          omega
      rw [decide_eq_true_iff]
      exact fun hthere => absurd hthere.1 (by omega)

/-- What follows a signature is found in bounds. -/
theorem wp_notedDescribe {romSize bootVector addr : UInt32} (probe : SaveProbe)
    (hctx : ctx.romSize=romSize.toNat)
    (hroom : addr.toNat+0x30<2^32) (hin : addr.toNat/2*2+15< romSize.toNat)
    (h : Below romSize.toNat noted) :
    wp (notedDescribe hw ctx d romSize bootVector addr probe)
      (fun result now => result=describeBatteryless hw ctx d addr.toNat probe ∧
        Below romSize.toNat now)
      (fun _ => False) noted := by
  have hword : (addr+0x0e).toNat=addr.toNat+0x0e := toNat_sum (by
    change addr.toNat+0x0e<2^32
    omega)
  have hoffset : (addr-bootVector+bootVector+0x10).toNat=addr.toNat+0x10 := by
    rw [UInt32.sub_add_cancel]
    refine toNat_sum ?_
    change addr.toNat+0x10<2^32
    omega
  unfold notedDescribe describeBatteryless
  refine wp_seq (wp_notedRead16 (by omega) h) ?_
  rintro word now ⟨rfl,hnow⟩
  rw [hword]
  obtain ⟨word,hvalue⟩ : ∃ word,word=romRead16 hw ctx d (addr.toNat+0x0e) := ⟨_,rfl⟩
  rw [← hvalue]
  have hpayload : (if word=0 then 0x414 else word.toUInt32 : UInt32).toNat=
      if word.toNat=0 then 0x414 else word.toNat := by
    by_cases hzero : word=0
    · rw [hzero]
      rfl
    · have hnat : word.toNat≠0 := fun h => hzero (UInt16.toNat_inj.mp h)
      rw [if_neg hzero,if_neg hnat,UInt16.toNat_toUInt32]
  obtain ⟨size,hsize⟩ : ∃ size : UInt32,size=if word=0 then 0x414 else word.toUInt32 := ⟨_,rfl⟩
  rw [← hsize] at hpayload
  dsimp only
  rw [← hsize,← hpayload,hoffset,hctx]
  obtain ⟨offset,hset⟩ : ∃ offset,offset=addr-bootVector+bootVector+0x10 := ⟨_,rfl⟩
  rw [← hset] at hoffset ⊢
  simp only [UInt32.lt_iff_toNat_lt,hoffset]
  split
  · exact ⟨rfl,hnow⟩
  next hstart =>
    -- the offsets behind the start of the payload
    have hstartNat : (offset-size).toNat=addr.toNat+0x10-size.toNat := by
      rw [UInt32.toNat_sub_of_le _ _ (by rw [UInt32.le_iff_toNat_le]; omega),hoffset]
    obtain ⟨start,hnamed⟩ : ∃ start,start=offset-size := ⟨_,rfl⟩
    rw [← hnamed] at hstartNat ⊢
    rw [← hstartNat]
    have hbehind : ∀ k : UInt32,k.toNat≤0x14 → (start+k).toNat=start.toNat+k.toNat :=
      fun k hk => toNat_sum (by omega)
    have hend : (start+20).toNat=start.toNat+20 := hbehind 20 (by decide)
    have hflag : (start+4).toNat=start.toNat+4 := hbehind 4 (by decide)
    have hsizeAt : (start+8).toNat=start.toNat+8 := hbehind 8 (by decide)
    have hrts : (start+12).toNat=start.toNat+12 := hbehind 12 (by decide)
    have hbuffer : (start+16).toNat=start.toNat+16 := hbehind 16 (by decide)
    rw [hend]
    split
    · exact ⟨rfl,hnow⟩
    next hfits =>
      have hsmall := romSize.toNat_lt
      refine wp_seq (wp_notedRead32 hsmall (by omega) hnow) ?_
      rintro flag now ⟨hflagValue,hnow⟩
      refine wp_seq (wp_notedRead32 hsmall (by omega) hnow) ?_
      rintro sizeWord now ⟨hsizeValue,hnow⟩
      rw [hflag] at hflagValue
      rw [hsizeAt] at hsizeValue
      rw [← hflagValue,← hsizeValue,toNat_sizePart,toNat_bufferPart]
      have hlimit : UInt32.toNat 0x70000=0x70000 := rfl
      have hmark : flag.toNat=0xf0 ↔ flag=0xf0 :=
        ⟨fun h => UInt32.toNat_inj.mp h,fun h => congrArg UInt32.toNat h⟩
      have hsome : sizeWord &&& 0xfffff000≠0 ↔ sizeWord.toNat/0x1000*0x1000≠0 := by
        rw [← toNat_sizePart,ne_eq,ne_eq,← UInt32.toNat_inj]
        rfl
      simp only [hlimit,hmark,hsome]
      split
      · split
        · refine wp_seq (wp_notedRead32 hsmall (by omega) hnow) ?_
          rintro rtsSize now ⟨hrtsValue,hnow⟩
          refine wp_seq (wp_notedRead32 hsmall (by omega) hnow) ?_
          rintro bufferSize now ⟨hbufferValue,hnow⟩
          rw [hrts] at hrtsValue
          rw [hbuffer] at hbufferValue
          rw [hrtsValue,hbufferValue]
          exact ⟨rfl,hnow⟩
        · exact ⟨rfl,hnow⟩
      · exact ⟨rfl,hnow⟩

/-- For all contents of a ROM of four bytes at least the search ends, finds what the driver
takes from it, and reads no byte outside of the ROM. -/
theorem batteryless_bounded (hw : CartHardware σ) (ctx : CartCtx) (d : σ) (probe : SaveProbe)
    {romSize : UInt32} {rounds : ℕ} (hctx : ctx.romSize=romSize.toNat) (hsize : 4≤ romSize)
    (hrounds : 0x1000< rounds) :
    wp (notedCheck hw ctx d romSize rounds probe)
      (fun result noted => result=checkBatterylessSram hw ctx d probe ∧
        Below romSize.toNat noted)
      (fun _ => False) [] := by
  rw [UInt32.le_iff_toNat_le] at hsize
  change 4≤ romSize.toNat at hsize
  have hsmall := romSize.toNat_lt
  unfold notedCheck checkBatterylessSram
  refine wp_seq (@wp_notedRead32 σ hw ctx d 0 romSize.toNat [] hsmall (by change 0+3<_; omega)
    (fun i hi => absurd hi List.not_mem_nil)) ?_
  rintro boot noted ⟨hboot,hnoted⟩
  obtain ⟨bootVector,hvector⟩ :
    ∃ bootVector : UInt32,bootVector=((boot &&& 0x00ffffff)+2) <<< 2 := ⟨_,rfl⟩
  have hat : bootVector.toNat=(romRead32 hw ctx d 0%0x1000000+2)*4 := by
    have hpart : (boot &&& 0x00ffffff).toNat=romRead32 hw ctx d 0%0x1000000 := by
      have hvalue : boot.toNat=romRead32 hw ctx d 0 := hboot
      rw [UInt32.toNat_and,← hvalue]
      exact Nat.and_two_pow_sub_one_eq_mod boot.toNat 24
    have hsum : ((boot &&& 0x00ffffff)+2).toNat=romRead32 hw ctx d 0%0x1000000+2 := by
      rw [← hpart]
      refine toNat_sum ?_
      rw [hpart]
      change _+2<2^32
      omega
    rw [hvector,UInt32.toNat_shiftLeft,hsum]
    change (romRead32 hw ctx d 0%0x1000000+2) <<< 2%2^32=_
    rw [Nat.shiftLeft_eq]
    omega
  rw [← hvector,← hat]
  have hlow : bootVector.toNat≤(0x1000000+1)*4 := by omega
  have hend : (bootVector+0x2000).toNat=bootVector.toNat+0x2000 := toNat_sum (by
    change bootVector.toNat+0x2000<2^32
    omega)
  have hsearch : clCartGbaBootVectorSearchBytes=0x2000 := rfl
  simp only [UInt32.le_iff_toNat_le,UInt32.lt_iff_toNat_lt,hend,hctx,hsearch]
  split
  · exact ⟨rfl,hnoted⟩
  next hinside =>
    refine wp_seq (wp_searchSig (by omega) (by omega) hsmall (by rw [hend]) hrounds hnoted) ?_
    rintro found noted ⟨hfound,hplace,hnoted⟩
    rw [hend] at hfound hplace
    rw [← hfound]
    cases found with
    | none => exact ⟨rfl,hnoted⟩
    | some addr =>
      obtain ⟨hbelow,hparity,hle⟩ := hplace addr rfl
      exact wp_notedDescribe probe hctx (by omega) (by omega) hnoted

/-- The variables of the driver for a ROM of sixteen kilobytes. -/
def smallCtx : CartCtx := {initialCtx with romBase := clCartGbaDefaultRomBase,romSize := 0x4000}

/-- A cartridge whose ROM is blank. -/
def blankHardware : CartHardware SramChip := sramHardware .banked fun _ => 0xffff

/-- Its memory. -/
def blankChip : SramChip := ⟨fun _ => 0,0⟩

/-- The search in its ROM. -/
theorem batteryless_bounded_small :
    wp (notedCheck blankHardware smallCtx blankChip 0x4000 0x1001 clearSaveProbe)
      (fun result noted =>
        result=checkBatterylessSram blankHardware smallCtx blankChip clearSaveProbe ∧
        Below (UInt32.toNat 0x4000) noted)
      (fun _ => False) [] :=
  batteryless_bounded blankHardware smallCtx blankChip clearSaveProbe rfl (by decide)
    (by decide)

end Bounds

end ChisLink.BatterylessBounds
