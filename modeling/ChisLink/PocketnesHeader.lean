import Mathlib.Data.Fin.VecNotation
import Mathlib.Data.Nat.Bitwise
import ChisLink.PocketnesCache

/-!
# The header of a NES image

Sixteen bytes say how large the parts of an image are. The parser refuses what the emulator
does not run and what does not fit into the file. What it accepts are parts that follow each
other in the file, and the reads of the page cache stay inside of them.
-/

namespace ChisLink.PocketnesHeader

open PocketnesCache

/-- The table `supported_mappers`. -/
def supportedMappers : List UInt16 :=
  [0,1,2,3,4,5,7,9,10,11,15,16,17,18,19,21,22,23,
    24,25,26,30,32,33,34,40,42,64,65,66,67,68,69,70,
    71,72,73,74,75,76,77,78,79,80,85,86,87,88,92,93,
    94,97,99,105,118,119,140,151,152,158,163,178,180,
    184,187,206,218,228,232,245,249,252,254]

/-- The function `chislink_nes_mapper_supported`. -/
def chislinkNesMapperSupported (mapper : UInt16) : Bool :=
  supportedMappers.any fun supported => supported=mapper

/-- The struct `chislink_nes_header_t`. -/
structure NesHeader where
  /-- Number of the mapper. -/
  mapper : UInt16
  /-- Number of its variant. -/
  submapper : UInt8
  /-- The header is a NES 2.0 header. -/
  nes20 : Bool
  /-- The byte 6. -/
  flags6 : UInt8
  /-- The byte 7, cleared where it is not to be trusted. -/
  flags7 : UInt8
  /-- Bytes of the program. -/
  prgSize : UInt32
  /-- Bytes of the characters. -/
  chrSize : UInt32
  /-- Where the program begins. -/
  prgOffset : UInt32
  /-- Where the characters begin. -/
  chrOffset : UInt32
deriving DecidableEq

/-- The result `CHISLINK_NES_OK`. -/
def chislinkNesOk : ℤ := 0

/-- The result `CHISLINK_NES_BAD_HEADER`. -/
def chislinkNesBadHeader : ℤ := -1

/-- The result `CHISLINK_NES_BAD_SIZE`. -/
def chislinkNesBadSize : ℤ := -2

/-- The result `CHISLINK_NES_UNSUPPORTED_MAPPER`. -/
def chislinkNesUnsupportedMapper : ℤ := -3

/-- The result `CHISLINK_NES_UNSUPPORTED_NES20`. -/
def chislinkNesUnsupportedNes20 : ℤ := -4

/-- The result `CHISLINK_NES_UNSUPPORTED_SIZE`. -/
def chislinkNesUnsupportedSize : ℤ := -5

section Parser

variable (header : Fin 16 → UInt8)

/-- The variable `nes20`. -/
def nes20 : Bool := header 7 &&& 0x0c=0x08

/-- The variable `flags7` after the bits of an old header are dropped. -/
def flags7 : UInt8 := if nes20 header=false ∧ header 7 &&& 0x0e≠0 then 0 else header 7

/-- The variable `mapper`. -/
def mapper : UInt16 :=
  let low := (header 6 >>> 4).toUInt16 ||| (flags7 header &&& 0xf0).toUInt16
  if nes20 header=true then low ||| ((header 8 &&& 0x0f).toUInt16 <<< 8) else low

/-- The variable `submapper`. -/
def submapper : UInt8 := if nes20 header=true then header 8 >>> 4 else 0

/-- The variable `prg_size`. -/
def prgSize : UInt32 := (header 4).toUInt32*16*1024

/-- The variable `chr_size`. -/
def chrSize : UInt32 := (header 5).toUInt32*8*1024

/-- The variable `prg_offset`. -/
def prgOffset : UInt32 := 16+if header 6 &&& 0x04≠0 then 512 else 0

/-- The function `chislink_nes_parse_header`: its result and `*out`. -/
def chislinkNesParseHeader (fileSize : UInt32) (out : NesHeader) : ℤ×NesHeader :=
  if header 0≠78 ∨ header 1≠69 ∨ header 2≠83 ∨ header 3≠0x1a then
    (chislinkNesBadHeader,out)
  else if nes20 header=true ∧ (255< mapper header ∨ submapper header≠0 ∨
      header 9 &&& 0x0f≠0 ∨ header 9 >>> 4≠0) then (chislinkNesUnsupportedNes20,out)
  else if chislinkNesMapperSupported (mapper header)=false then
    (chislinkNesUnsupportedMapper,out)
  else if 128<header 5 then (chislinkNesUnsupportedSize,out)
  else if prgSize header=0 ∨ fileSize<prgOffset header ∨
      fileSize-prgOffset header<prgSize header ∨
      fileSize-prgOffset header-prgSize header<chrSize header then (chislinkNesBadSize,out)
  else
    (chislinkNesOk,
      { mapper := mapper header
        submapper := submapper header
        nes20 := nes20 header
        flags6 := header 6
        flags7 := flags7 header
        prgSize := prgSize header
        chrSize := chrSize header
        prgOffset := prgOffset header
        chrOffset := prgOffset header+prgSize header })

end Parser

section Reads

/-- The offset and the length that `read_group` asks the bridge for. -/
def groupRead (fileOffset fileBytes groupBytes group : UInt32) : Option (UInt32×UInt32) :=
  let offset := group*groupBytes
  if fileBytes≤ offset then none
  else
    let take := fileBytes-offset
    some (fileOffset+offset,if groupBytes<take then groupBytes else take)

/-- The read of `chislink_pocketnes_ensure_prg` for a page that is not cached. -/
def ensurePrgRead (out : NesHeader) (rompages : UInt8) (page : UInt32) :
    Option (UInt32×UInt32) :=
  let pages := rompages.toUInt32*2
  if pages=0 then none
  else groupRead out.prgOffset out.prgSize (UInt32.ofNat prgGroupBytes)
    (page%pages/UInt32.ofNat prgGroupPages)

/-- The read of `chislink_pocketnes_ensure_chr` for a page that is not cached and not in
the memory of the machine. -/
def ensureChrRead (out : NesHeader) (page : UInt32) : Option (UInt32×UInt32) :=
  let pages := out.chrSize/UInt32.ofNat chrPageBytes
  if pages=0 then none
  else groupRead out.chrOffset out.chrSize (UInt32.ofNat chrPageBytes) (page%pages)

/-- The read of `chislink_pocketnes_prg67` for a page that is not the one at `$6000`. -/
def prg67Read (out : NesHeader) (rompages : UInt8) (page : UInt32) : Option (UInt32×UInt32) :=
  let pages := rompages.toUInt32*2
  if pages=0 then none
  else some (out.prgOffset+page%pages*UInt32.ofNat prgPageBytes,UInt32.ofNat prgPageBytes)

end Reads

/-- Bytes of the trainer, by the bit of the header. -/
def trainerBytes (header : Fin 16 → UInt8) : ℕ := if (header 6).toNat/4%2=1 then 512 else 0

/-- The two bits that mark a NES 2.0 header. -/
def IsNes20 (header : Fin 16 → UInt8) : Prop := (header 7).toNat/4%4=2

/-- A header of an old tool, whose bytes from 7 on are text. -/
def IsOld (header : Fin 16 → UInt8) : Prop := ¬IsNes20 header ∧ (header 7).toNat/2%8≠0

instance (header : Fin 16 → UInt8) : Decidable (IsNes20 header) :=
  inferInstanceAs (Decidable (_=_))

instance (header : Fin 16 → UInt8) : Decidable (IsOld header) :=
  inferInstanceAs (Decidable (_ ∧ _))

/-- The number of the mapper, put together from its digits to the base 16. -/
def mapperNumber (header : Fin 16 → UInt8) : ℕ :=
  (header 6).toNat/16+(if IsOld header then 0 else (header 7).toNat/16*16)+
    (if IsNes20 header then (header 8).toNat%16*256 else 0)

/-- What an image has to be to be accepted. -/
structure Accepted (header : Fin 16 → UInt8) (fileSize : ℕ) : Prop where
  /-- The magic. -/
  magic : header 0=78 ∧ header 1=69 ∧ header 2=83 ∧ header 3=0x1a
  /-- A NES 2.0 header uses no large mapper, no submapper and no large size. -/
  plain : IsNes20 header → mapperNumber header≤255 ∧ (header 8).toNat/16=0 ∧ header 9=0
  /-- The mapper is in the table. -/
  supported : mapperNumber header∈ supportedMappers.map UInt16.toNat
  /-- There is a program. -/
  prg : 1≤(header 4).toNat
  /-- There are not too many characters. -/
  chr : (header 5).toNat≤128
  /-- Everything is in the file. -/
  fits : 16+trainerBytes header+(header 4).toNat*16384+(header 5).toNat*8192≤ fileSize

/-- A position in a section of the file. -/
def Within (start length : UInt32) (position : ℕ) : Prop :=
  start.toNat≤position ∧ position<start.toNat+length.toNat

/-- What the parser reports: sections with the sizes of the header, disjoint and in the
file. -/
structure Sections (header : Fin 16 → UInt8) (fileSize : ℕ) (out : NesHeader) : Prop where
  /-- The program size. -/
  prgSize_eq : out.prgSize.toNat=(header 4).toNat*16384
  /-- The character size. -/
  chrSize_eq : out.chrSize.toNat=(header 5).toNat*8192
  /-- The program is behind the trainer. -/
  prgOffset_eq : out.prgOffset.toNat=16+trainerBytes header
  /-- The characters are behind the program. -/
  chrOffset_eq : out.chrOffset.toNat=out.prgOffset.toNat+out.prgSize.toNat
  /-- No byte is in two sections. -/
  disjoint : ∀ position,
    (Within 16 (UInt32.ofNat (trainerBytes header)) position →
      ¬Within out.prgOffset out.prgSize position ∧
        ¬Within out.chrOffset out.chrSize position) ∧
    (Within out.prgOffset out.prgSize position → ¬Within out.chrOffset out.chrSize position)
  /-- Every byte of a section is in the file. -/
  inFile : ∀ position,Within 16 (UInt32.ofNat (trainerBytes header)) position ∨
    Within out.prgOffset out.prgSize position ∨ Within out.chrOffset out.chrSize position →
      position<fileSize

/-- A read of some bytes of a section at an offset in it. -/
structure ReadsSection (start length : UInt32) (offset most : ℕ)
    (read : Option (UInt32×UInt32)) : Prop where
  /-- It asks for the bytes there, and no more than there are. -/
  eq : ∃ at' count,read=some (at',count) ∧ at'.toNat=start.toNat+offset ∧ 0<count.toNat ∧
    count.toNat=min most (length.toNat-offset)
  /-- All of them are in the section. -/
  within : ∀ at' count,read=some (at',count) → ∀ position,
    Within at' count position → Within start length position

/-- The reads of the cache stay in their sections. -/
structure SafeReads (header : Fin 16 → UInt8) (out : NesHeader) : Prop where
  /-- The read of a program group. -/
  prg : ∀ page : UInt32,ReadsSection out.prgOffset out.prgSize
    (page.toNat%((header 4).toNat*2)/4*32768) 32768 (ensurePrgRead out (header 4) page)
  /-- The read of a character page, where there are characters. -/
  chr : ∀ page : UInt32,header 5≠0 → ReadsSection out.chrOffset out.chrSize
    (page.toNat%((header 5).toNat*8)*1024) 1024 (ensureChrRead out page)
  /-- Without characters nothing is read. -/
  noChr : ∀ page : UInt32,header 5=0 → ensureChrRead out page=none
  /-- The read of the page at `$6000`. -/
  prg67 : ∀ page : UInt32,ReadsSection out.prgOffset out.prgSize
    (page.toNat%((header 4).toNat*2)*8192) 8192 (prg67Read out (header 4) page)

section Bits

variable {header : Fin 16 → UInt8}

/-- Bits 2 and 3 of a byte. -/
theorem and_twelve (b : UInt8) : b &&& 0x0c=0x08 ↔ b.toNat/4%4=2 := by
  have hbits : ∀ n<256,(n &&& 12=8 ↔ n/4%4=2) := by
    decide +kernel
  rw [← UInt8.toNat_inj,UInt8.toNat_and]
  exact hbits b.toNat b.toNat_lt

/-- Bits 1 to 3 of a byte. -/
theorem and_fourteen (b : UInt8) : b &&& 0x0e=0 ↔ b.toNat/2%8=0 := by
  have hbits : ∀ n<256,(n &&& 14=0 ↔ n/2%8=0) := by
    decide +kernel
  rw [← UInt8.toNat_inj,UInt8.toNat_and]
  exact hbits b.toNat b.toNat_lt

/-- Bit 2 of a byte. -/
theorem and_four (b : UInt8) : b &&& 0x04=0 ↔ ¬b.toNat/4%2=1 := by
  have hbits : ∀ n<256,(n &&& 4=0 ↔ ¬n/4%2=1) := by
    decide +kernel
  rw [← UInt8.toNat_inj,UInt8.toNat_and]
  exact hbits b.toNat b.toNat_lt

/-- The upper digit of a byte in its place. -/
theorem toNat_upper (b : UInt8) : (b &&& 0xf0).toNat=b.toNat/16*16 := by
  have hbits : ∀ n<256,n &&& 240=n/16*16 := by
    decide +kernel
  rw [UInt8.toNat_and]
  exact hbits b.toNat b.toNat_lt

/-- The lower digit of a byte. -/
theorem toNat_lower (b : UInt8) : (b &&& 0x0f).toNat=b.toNat%16 := by
  rw [UInt8.toNat_and]
  exact Nat.and_two_pow_sub_one_eq_mod b.toNat 4

/-- The upper digit of a byte. -/
theorem toNat_digit (b : UInt8) : (b >>> 4).toNat=b.toNat/16 := by
  rw [UInt8.toNat_shiftRight]
  exact Nat.shiftRight_eq_div_pow b.toNat 4

/-- A byte is clear if both of its digits are. -/
theorem digits_eq_zero (b : UInt8) : b &&& 0x0f≠0 ∨ b >>> 4≠0 ↔ b≠0 := by
  have hlower := toNat_lower b
  have hupper := toNat_digit b
  have hzero : (0 : UInt8).toNat=0 := rfl
  rw [ne_eq,ne_eq,ne_eq,← UInt8.toNat_inj,← UInt8.toNat_inj,← UInt8.toNat_inj,hlower,hupper,
    hzero]
  omega

theorem nes20_iff : nes20 header=true ↔ IsNes20 header := by
  unfold nes20 IsNes20
  rw [decide_eq_true_iff]
  exact and_twelve (header 7)

theorem nes20_eq_false_iff : nes20 header=false ↔ ¬IsNes20 header := by
  rw [← nes20_iff,Bool.not_eq_true]

/-- The digit of the mapper in the byte 7. -/
theorem toNat_flags7 :
    (flags7 header &&& 0xf0).toNat=if IsOld header then 0 else (header 7).toNat/16*16 := by
  have hold : (nes20 header=false ∧ header 7 &&& 0x0e≠0) ↔ IsOld header := by
    unfold IsOld
    rw [nes20_eq_false_iff,ne_eq,and_fourteen]
  unfold flags7
  by_cases h : IsOld header
  · rw [if_pos (hold.mpr h),if_pos h]
    rfl
  · rw [if_neg (fun h' => h (hold.mp h')),if_neg h]
    exact toNat_upper (header 7)

/-- The mapper is put together from its digits. -/
theorem toNat_mapper : (mapper header).toNat=mapperNumber header := by
  have hlow : ((header 6 >>> 4).toUInt16 ||| (flags7 header &&& 0xf0).toUInt16).toNat=
      (header 6).toNat/16+(if IsOld header then 0 else (header 7).toNat/16*16) := by
    rw [UInt16.toNat_or,UInt8.toNat_toUInt16,UInt8.toNat_toUInt16,toNat_digit,toNat_flags7]
    have hsmall : (header 6).toNat/16<2^4 := by
      have := (header 6).toNat_lt
      omega
    split
    · rw [Nat.or_zero,Nat.add_zero]
    · rw [Nat.or_comm,Nat.mul_comm,Nat.add_comm]
      exact (Nat.two_pow_add_eq_or_of_lt hsmall _).symm
  have hbound : (header 6).toNat/16+(if IsOld header then 0 else (header 7).toNat/16*16)<2^8 := by
    have h6 := (header 6).toNat_lt
    have h7 := (header 7).toNat_lt
    split <;> omega
  unfold mapper mapperNumber
  dsimp only
  by_cases h : IsNes20 header
  · have hshift : ((header 8 &&& 0x0f).toUInt16 <<< 8).toNat=2^8*((header 8).toNat%16) := by
      have height : (8 : UInt16).toNat%16=8 := rfl
      rw [UInt16.toNat_shiftLeft,UInt8.toNat_toUInt16,toNat_lower,height,Nat.shiftLeft_eq,
        Nat.mul_comm]
      exact Nat.mod_eq_of_lt (by omega)
    rw [if_pos (nes20_iff.mpr h),if_pos h,UInt16.toNat_or,hlow,hshift,Nat.or_comm,
      ← Nat.two_pow_add_eq_or_of_lt hbound]
    omega
  · rw [if_neg (fun h' => h (nes20_iff.mp h')),if_neg h,hlow,Nat.add_zero]

/-- The offset of the program. -/
theorem toNat_prgOffset : (prgOffset header).toNat=16+trainerBytes header := by
  unfold prgOffset trainerBytes
  by_cases h : (header 6).toNat/4%2=1
  · rw [if_pos (fun h' => (and_four _).mp h' h),if_pos h]
    rfl
  · rw [if_neg (not_not.mpr ((and_four _).mpr h)),if_neg h]
    rfl

theorem trainerBytes_le (header : Fin 16 → UInt8) : trainerBytes header≤512 := by
  unfold trainerBytes
  split <;> omega

theorem toNat_prgSize : (prgSize header).toNat=(header 4).toNat*16384 := by
  have hlt := (header 4).toNat_lt
  unfold prgSize
  rw [UInt32.toNat_mul,UInt32.toNat_mul,UInt8.toNat_toUInt32]
  have hsixteen : (16 : UInt32).toNat=16 := rfl
  have hkilo : (1024 : UInt32).toNat=1024 := rfl
  rw [hsixteen,hkilo]
  omega

theorem toNat_chrSize : (chrSize header).toNat=(header 5).toNat*8192 := by
  have hlt := (header 5).toNat_lt
  unfold chrSize
  rw [UInt32.toNat_mul,UInt32.toNat_mul,UInt8.toNat_toUInt32]
  have height : (8 : UInt32).toNat=8 := rfl
  have hkilo : (1024 : UInt32).toNat=1024 := rfl
  rw [height,hkilo]
  omega

end Bits

/-- What is reported of an image that is accepted. -/
def report (header : Fin 16 → UInt8) : NesHeader where
  mapper := mapper header
  submapper := submapper header
  nes20 := nes20 header
  flags6 := header 6
  flags7 := flags7 header
  prgSize := prgSize header
  chrSize := chrSize header
  prgOffset := prgOffset header
  chrOffset := prgOffset header+prgSize header

section Acceptance

variable {header : Fin 16 → UInt8} {fileSize : UInt32}

/-- The check of a NES 2.0 header. -/
theorem nes20_check_iff :
    ¬(nes20 header=true ∧ (255< mapper header ∨ submapper header≠0 ∨
      header 9 &&& 0x0f≠0 ∨ header 9 >>> 4≠0)) ↔
    (IsNes20 header → mapperNumber header≤255 ∧ (header 8).toNat/16=0 ∧ header 9=0) := by
  rw [nes20_iff,digits_eq_zero,UInt16.lt_iff_toNat_lt,toNat_mapper,not_and,not_or,not_or]
  refine imp_congr_right fun h => ?_
  have hsub : submapper header≠0 ↔ ¬(header 8).toNat/16=0 := by
    unfold submapper
    rw [if_pos (nes20_iff.mpr h),ne_eq,← UInt8.toNat_inj,toNat_digit]
    rfl
  have hbyte : (255 : UInt16).toNat=255 := rfl
  rw [hsub,not_not,hbyte,Nat.not_lt,ne_eq,not_not]

/-- The table holds the numbers of the mappers. -/
theorem supported_iff :
    chislinkNesMapperSupported (mapper header)=true ↔
      mapperNumber header∈ supportedMappers.map UInt16.toNat := by
  unfold chislinkNesMapperSupported
  rw [List.any_eq_true,List.mem_map,← toNat_mapper]
  refine exists_congr fun supported => and_congr_right fun _ => ?_
  rw [decide_eq_true_iff,UInt16.toNat_inj]

/-- The check of the sizes does not overflow. -/
theorem sizes_iff :
    ¬(prgSize header=0 ∨ fileSize<prgOffset header ∨
      fileSize-prgOffset header<prgSize header ∨
      fileSize-prgOffset header-prgSize header<chrSize header) ↔
    1≤(header 4).toNat ∧
      16+trainerBytes header+(header 4).toNat*16384+(header 5).toNat*8192≤ fileSize.toNat := by
  have hprg := @toNat_prgSize header
  have hchr := @toNat_chrSize header
  have hoffset := @toNat_prgOffset header
  rw [← UInt32.toNat_inj,UInt32.lt_iff_toNat_lt,UInt32.lt_iff_toNat_lt,UInt32.lt_iff_toNat_lt]
  have hzero : (0 : UInt32).toNat=0 := rfl
  by_cases hle : prgOffset header≤ fileSize
  · have hbehind := UInt32.toNat_sub_of_le fileSize (prgOffset header) hle
    have hleNat := UInt32.le_iff_toNat_le.mp hle
    by_cases hroom : prgSize header≤ fileSize-prgOffset header
    · have hrest := UInt32.toNat_sub_of_le _ _ hroom
      have hroomNat := UInt32.le_iff_toNat_le.mp hroom
      omega
    · have hroomNat := mt UInt32.le_iff_toNat_le.mpr hroom
      omega
  · have hleNat := mt UInt32.le_iff_toNat_le.mpr hle
    omega

/-- An image that may be accepted is. -/
theorem parse_accepted (h : Accepted header fileSize.toNat) (out : NesHeader) :
    chislinkNesParseHeader header fileSize out=(chislinkNesOk,report header) := by
  have hmagic : ¬(header 0≠78 ∨ header 1≠69 ∨ header 2≠83 ∨ header 3≠0x1a) := by
    obtain ⟨h0,h1,h2,h3⟩ := h.magic
    rintro (h' | h' | h' | h')
    · exact h' h0
    · exact h' h1
    · exact h' h2
    · exact h' h3
  have hchr : ¬128<header 5 := by
    rw [UInt8.lt_iff_toNat_lt]
    exact Nat.not_lt.mpr h.chr
  have hsupported : ¬chislinkNesMapperSupported (mapper header)=false := by
    rw [supported_iff.mpr h.supported]
    decide
  unfold chislinkNesParseHeader
  rw [if_neg hmagic,if_neg (nes20_check_iff.mpr h.plain),if_neg hsupported,if_neg hchr,
    if_neg (sizes_iff.mpr ⟨h.prg,h.fits⟩)]
  rfl

/-- What is refused leaves nothing behind. -/
theorem parse_refused (h : ¬Accepted header fileSize.toNat) (out : NesHeader) :
    ∃ ret,ret≠ chislinkNesOk ∧ chislinkNesParseHeader header fileSize out=(ret,out) := by
  unfold chislinkNesParseHeader
  by_cases hmagic : header 0≠78 ∨ header 1≠69 ∨ header 2≠83 ∨ header 3≠0x1a
  · rw [if_pos hmagic]
    exact ⟨_,by decide,rfl⟩
  rw [if_neg hmagic]
  by_cases hplain : nes20 header=true ∧ (255< mapper header ∨ submapper header≠0 ∨
      header 9 &&& 0x0f≠0 ∨ header 9 >>> 4≠0)
  · rw [if_pos hplain]
    exact ⟨_,by decide,rfl⟩
  rw [if_neg hplain]
  by_cases hsupported : chislinkNesMapperSupported (mapper header)=false
  · rw [if_pos hsupported]
    exact ⟨_,by decide,rfl⟩
  rw [if_neg hsupported]
  by_cases hchr : 128<header 5
  · rw [if_pos hchr]
    exact ⟨_,by decide,rfl⟩
  rw [if_neg hchr]
  by_cases hsizes : prgSize header=0 ∨ fileSize<prgOffset header ∨
      fileSize-prgOffset header<prgSize header ∨
      fileSize-prgOffset header-prgSize header<chrSize header
  · rw [if_pos hsizes]
    exact ⟨_,by decide,rfl⟩
  obtain ⟨hprg,hfits⟩ := sizes_iff.mp hsizes
  rw [not_or,not_or,not_or,ne_eq,ne_eq,ne_eq,ne_eq,not_not,not_not,not_not,not_not] at hmagic
  rw [UInt8.lt_iff_toNat_lt] at hchr
  rw [Bool.not_eq_false] at hsupported
  exact absurd ⟨hmagic,nes20_check_iff.mp hplain,supported_iff.mp hsupported,hprg,
    Nat.not_lt.mp hchr,hfits⟩ h

/-- The sections of an image that is accepted. -/
theorem sections_report (h : Accepted header fileSize.toNat) :
    Sections header fileSize.toNat (report header) := by
  have hprg := @toNat_prgSize header
  have hchr := @toNat_chrSize header
  have hoffset := @toNat_prgOffset header
  have hfits := h.fits
  have hfile := fileSize.toNat_lt
  have htrainer : (UInt32.ofNat (trainerBytes header)).toNat=trainerBytes header := by
    have hle := trainerBytes_le header
    exact Nat.mod_eq_of_lt (by omega : trainerBytes header<2^32)
  have hstart : (16 : UInt32).toNat=16 := rfl
  have hbehind : (prgOffset header+prgSize header).toNat=
      (prgOffset header).toNat+(prgSize header).toNat := by
    rw [UInt32.toNat_add]
    exact Nat.mod_eq_of_lt (by omega)
  refine ⟨hprg,hchr,hoffset,hbehind,fun position => ?_,fun position => ?_⟩
  · dsimp only [report,Within]
    rw [htrainer,hbehind,hprg,hchr,hoffset,hstart]
    omega
  · dsimp only [report,Within]
    rw [htrainer,hbehind,hprg,hchr,hoffset,hstart]
    omega

end Acceptance

section SafeReads

variable {header : Fin 16 → UInt8} {fileSize : UInt32} {out : NesHeader}

/-- A read at an offset in a section. -/
theorem readsSection_of_eq {start length at' count : UInt32} {offset most : ℕ}
    (hat : at'.toNat=start.toNat+offset) (hpos : 0<count.toNat)
    (hcount : count.toNat=min most (length.toNat-offset)) :
    ReadsSection start length offset most (some (at',count)) := by
  refine ⟨⟨at',count,rfl,hat,hpos,hcount⟩,?_⟩
  intro other many h position hposition
  obtain ⟨rfl,rfl⟩ := Prod.mk.inj (Option.some.inj h)
  unfold Within at hposition ⊢
  omega

/-- The read of a group that begins in its section. -/
theorem groupRead_reads {start length most group : UInt32} (hend : start.toNat+length.toNat<2^32)
    (hmost : 0< most.toNat) (h : group.toNat*most.toNat<length.toNat) :
    ReadsSection start length (group.toNat*most.toNat) most.toNat
      (groupRead start length most group) := by
  have hoffset : (group*most).toNat=group.toNat*most.toNat := by
    rw [UInt32.toNat_mul]
    exact Nat.mod_eq_of_lt (by omega)
  have hle : group*most≤ length := by
    rw [UInt32.le_iff_toNat_le]
    omega
  have hnot : ¬length≤ group*most := by
    rw [UInt32.le_iff_toNat_le]
    omega
  have hrest := UInt32.toNat_sub_of_le length (group*most) hle
  unfold groupRead
  dsimp only
  rw [if_neg hnot]
  apply readsSection_of_eq
  · rw [UInt32.toNat_add,hoffset]
    exact Nat.mod_eq_of_lt (by omega)
  · split
    · exact hmost
    · omega
  · split
    next hlt =>
      rw [UInt32.lt_iff_toNat_lt] at hlt
      omega
    next hle' =>
      rw [UInt32.lt_iff_toNat_lt] at hle'
      omega

/-- The reads of the cache of an image that is accepted. -/
theorem safeReads_report (h : Accepted header fileSize.toNat) :
    SafeReads header (report header) := by
  have hprg := @toNat_prgSize header
  have hchr := @toNat_chrSize header
  have hoffset := @toNat_prgOffset header
  have hsections := sections_report h
  have hbehind : (report header).chrOffset.toNat=
      (prgOffset header).toNat+(prgSize header).toNat := hsections.chrOffset_eq
  have hfits := h.fits
  have hpositive := h.prg
  have hfile := fileSize.toNat_lt
  have hbank := (header 4).toNat_lt
  have hpages : ((header 4).toUInt32*2).toNat=(header 4).toNat*2 := by
    have htwo : (2 : UInt32).toNat=2 := rfl
    rw [UInt32.toNat_mul,UInt8.toNat_toUInt32,htwo]
    exact Nat.mod_eq_of_lt (by omega)
  have hnonzero : ¬(header 4).toUInt32*2=0 := by
    rw [← UInt32.toNat_inj,hpages]
    have hzero : (0 : UInt32).toNat=0 := rfl
    omega
  have hpage : ∀ page : UInt32,(page%((header 4).toUInt32*2)).toNat=
      page.toNat%((header 4).toNat*2) := by
    intro page
    rw [UInt32.toNat_mod,hpages]
  have hlt : ∀ page : UInt32,page.toNat%((header 4).toNat*2)<(header 4).toNat*2 :=
    fun page => Nat.mod_lt _ (by omega)
  have hcount : (report header).chrSize/UInt32.ofNat chrPageBytes=
      UInt32.ofNat ((header 5).toNat*8) := by
    have hfive := (header 5).toNat_lt
    have hsmall : (UInt32.ofNat ((header 5).toNat*8)).toNat=(header 5).toNat*8 :=
      Nat.mod_eq_of_lt (by omega : (header 5).toNat*8<2^32)
    have hkilo : (UInt32.ofNat chrPageBytes).toNat=1024 := rfl
    rw [← UInt32.toNat_inj,UInt32.toNat_div,hsmall,hkilo,hsections.chrSize_eq]
    omega
  refine ⟨fun page => ?_,fun page hsome => ?_,fun page hnone => ?_,fun page => ?_⟩
  · have hmod := hlt page
    have hgroup : (page%((header 4).toUInt32*2)/UInt32.ofNat prgGroupPages).toNat=
        page.toNat%((header 4).toNat*2)/4 := by
      rw [UInt32.toNat_div,hpage]
      rfl
    have hreads := @groupRead_reads (prgOffset header) (prgSize header)
      (UInt32.ofNat prgGroupBytes) (page%((header 4).toUInt32*2)/UInt32.ofNat prgGroupPages)
    have hbytes : (UInt32.ofNat prgGroupBytes).toNat=32768 := rfl
    rw [hgroup,hbytes] at hreads
    unfold ensurePrgRead
    dsimp only
    rw [if_neg hnonzero]
    exact hreads (by omega) (by omega) (by omega)
  · have hfive : (header 5).toNat≠0 := fun h' => hsome (UInt8.toNat_inj.mp h')
    have hmod : page.toNat%((header 5).toNat*8)<(header 5).toNat*8 :=
      Nat.mod_lt _ (by omega)
    have hsmall : (UInt32.ofNat ((header 5).toNat*8)).toNat=(header 5).toNat*8 :=
      Nat.mod_eq_of_lt (by have := (header 5).toNat_lt; omega : (header 5).toNat*8<2^32)
    have hreads := @groupRead_reads (report header).chrOffset (chrSize header)
      (UInt32.ofNat chrPageBytes) (page%UInt32.ofNat ((header 5).toNat*8))
    have hkilo : (UInt32.ofNat chrPageBytes).toNat=1024 := rfl
    rw [UInt32.toNat_mod,hsmall,hkilo] at hreads
    have hneg : ¬UInt32.ofNat ((header 5).toNat*8)=0 := by
      rw [← UInt32.toNat_inj,hsmall]
      have hzero : (0 : UInt32).toNat=0 := rfl
      omega
    unfold ensureChrRead
    dsimp only
    rw [hcount,if_neg hneg]
    exact hreads (by omega) (by omega) (by omega)
  · unfold ensureChrRead
    dsimp only
    rw [hcount,hnone]
    rfl
  · have hmod := hlt page
    have hbytes : (UInt32.ofNat prgPageBytes).toNat=8192 := rfl
    have hstart : (page%((header 4).toUInt32*2)*UInt32.ofNat prgPageBytes).toNat=
        page.toNat%((header 4).toNat*2)*8192 := by
      rw [UInt32.toNat_mul,hpage,hbytes]
      exact Nat.mod_eq_of_lt (by omega)
    unfold prg67Read
    dsimp only
    rw [if_neg hnonzero]
    apply readsSection_of_eq
    · dsimp only [report]
      rw [UInt32.toNat_add,hstart]
      exact Nat.mod_eq_of_lt (by omega)
    · rw [hbytes]
      omega
    · dsimp only [report]
      rw [hbytes,hprg]
      omega

end SafeReads

section Cache

variable {header : Fin 16 → UInt8} {fileSize : UInt32}

/-- The cartridge of an image that is accepted. -/
def cartOf (rom : ℕ → UInt8) (h : Accepted header fileSize.toNat) : Cart where
  rom := rom
  prgOffset := 16+trainerBytes header
  rompages := (header 4).toNat
  rompages_pos := h.prg
  rompages_lt := (header 4).toNat_lt
  chrBanks := (header 5).toNat
  chrBanks_le := h.chr
  mapper := mapperNumber header

/-- The bytes of a slot after a read. -/
def filled (rom : ℕ → UInt8) (read : Read) : Option (UInt32×UInt32) → Bool×(ℕ → UInt8)
  | none => (false,fun _ => 0xff)
  | some (at',count) =>
    (read.isNone,fun i => if i<count.toNat then readBytes read (fun i => rom (at'.toNat+i)) i
      else 0xff)

/-- The page cache fills a group with what the words of the read say. -/
theorem readGroup_eq (cart : Cart) (read : Read) {start length : UInt32}
    {request : Option (UInt32×UInt32)} {groupBytes group : ℕ}
    (h : ReadsSection start length (group*groupBytes) groupBytes request) :
    readGroup cart start.toNat length.toNat groupBytes group read=
      filled cart.rom read request := by
  obtain ⟨at',count,heq,hat,hpos,hcount⟩ := h.eq
  have hlt : ¬length.toNat≤ group*groupBytes := by
    omega
  rw [heq]
  unfold readGroup filled
  dsimp only
  rw [if_neg hlt,hat,hcount,Nat.min_comm]

/-- The program group that the page cache reads. -/
theorem readGroup_prg (h : Accepted header fileSize.toNat) (rom : ℕ → UInt8) (read : Read)
    (page : UInt32) :
    readGroup (cartOf rom h) (cartOf rom h).prgOffset (cartOf rom h).prgSize prgGroupBytes
        (page.toNat%(cartOf rom h).prgPages/prgGroupPages) read=
      filled rom read (ensurePrgRead (report header) (header 4) page) := by
  have hstart : (cartOf rom h).prgOffset=(report header).prgOffset.toNat :=
    (sections_report h).prgOffset_eq.symm
  have hlength : (cartOf rom h).prgSize=(report header).prgSize.toNat :=
    (sections_report h).prgSize_eq.symm
  rw [hstart,hlength]
  exact readGroup_eq (cartOf rom h) read ((safeReads_report h).prg page)

/-- The character page that the page cache reads. -/
theorem readGroup_chr (h : Accepted header fileSize.toNat) (hsome : header 5≠0)
    (rom : ℕ → UInt8) (read : Read) (page : UInt32) :
    readGroup (cartOf rom h) (cartOf rom h).chrOffset (cartOf rom h).chrSize chrPageBytes
        (page.toNat%(cartOf rom h).chrPages) read=
      filled rom read (ensureChrRead (report header) page) := by
  have hsections := sections_report h
  have hstart : (cartOf rom h).chrOffset=(report header).chrOffset.toNat := by
    rw [hsections.chrOffset_eq,hsections.prgOffset_eq,hsections.prgSize_eq]
    rfl
  have hlength : (cartOf rom h).chrSize=(report header).chrSize.toNat :=
    hsections.chrSize_eq.symm
  have hpages : (cartOf rom h).chrPages=(header 5).toNat*8 := by
    have hsize : (cartOf rom h).chrPages=(header 5).toNat*(8*1024)/1024 := rfl
    omega
  rw [hstart,hlength,hpages]
  exact readGroup_eq (cartOf rom h) read ((safeReads_report h).chr page hsome)

/-- The parser accepts exactly the images that the emulator can run and that are complete.
What it reports are disjoint sections of the file in which every read of the cache stays,
and what it refuses leaves `*out` as it was. -/
theorem nes_header_safe (header : Fin 16 → UInt8) (fileSize : UInt32) (out : NesHeader) :
    ((chislinkNesParseHeader header fileSize out).1=chislinkNesOk ↔
      Accepted header fileSize.toNat) ∧
    ((chislinkNesParseHeader header fileSize out).1≠ chislinkNesOk →
      (chislinkNesParseHeader header fileSize out).2=out) ∧
    ((chislinkNesParseHeader header fileSize out).1=chislinkNesOk →
      Sections header fileSize.toNat (chislinkNesParseHeader header fileSize out).2 ∧
      SafeReads header (chislinkNesParseHeader header fileSize out).2) := by
  by_cases h : Accepted header fileSize.toNat
  · rw [parse_accepted h out]
    exact ⟨⟨fun _ => h,fun _ => rfl⟩,fun hne => absurd rfl hne,
      fun _ => ⟨sections_report h,safeReads_report h⟩⟩
  · obtain ⟨ret,hret,heq⟩ := parse_refused h out
    rw [heq]
    exact ⟨⟨fun hok => absurd hok hret,fun hacc => absurd hacc h⟩,fun _ => rfl,
      fun hok => absurd hok hret⟩

/-- The header of an image with two program banks and one character bank. -/
def smallHeader : Fin 16 → UInt8 :=
  ![78,69,83,0x1a,2,1,0x40,0,0,0,0,0,0,0,0,0]

/-- What is not filled. -/
def noHeader : NesHeader := ⟨0,0,false,0,0,0,0,0,0⟩

/-- An image that just fits is accepted, and its parts are in the file. -/
theorem nes_header_safe_small :
    Sections smallHeader 40976 (chislinkNesParseHeader smallHeader 40976 noHeader).2 ∧
      SafeReads smallHeader (chislinkNesParseHeader smallHeader 40976 noHeader).2 :=
  (nes_header_safe smallHeader 40976 noHeader).2.2 (by decide +kernel)

end Cache

end ChisLink.PocketnesHeader
