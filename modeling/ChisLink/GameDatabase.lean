import Mathlib.Data.List.GetD
import ChisLink.Bisection
import ChisLink.WireProtocol

/-!
# The game database

A database is a file of records sorted by game code. There is a record of five bytes,
the code and a save type, and one of nine bytes with the save size behind them. Nothing
in the file says which one it is made of; the size of a record is guessed from the size
of the file. Files of nine byte records whose number is a multiple of five are read as
if they had five byte records.
-/

namespace ChisLink.GameDatabase

open Bisection WireProtocol

/-- The type `CL_GAME_SAVE_NONE`. -/
def clGameSaveNone : UInt32 := 0xff

/-- The type `CL_GAME_SAVE_SRAM`. -/
def clGameSaveSram : UInt32 := 0

/-- The type `CL_GAME_SAVE_EEPROM`. -/
def clGameSaveEeprom : UInt32 := 1

/-- The type `CL_GAME_SAVE_FLASH`. -/
def clGameSaveFlash : UInt32 := 2

/-- The structure `cl_game_save_info_t`. -/
structure GameSaveInfo where
  /-- Kind of the memory. -/
  type : UInt32
  /-- Its size in bytes. -/
  size : UInt32
deriving DecidableEq

/-- The function `save_type_from_short_code`. -/
def saveTypeFromShortCode (code : UInt8) : GameSaveInfo :=
  match code.toNat with
  | 0 => ⟨clGameSaveNone,0⟩
  | 1 => ⟨clGameSaveEeprom,512⟩
  | 2 => ⟨clGameSaveEeprom,8192⟩
  | 3 => ⟨clGameSaveSram,32768⟩
  | 4 => ⟨clGameSaveFlash,65536⟩
  | 5 => ⟨clGameSaveFlash,131072⟩
  | 6 => ⟨clGameSaveSram,1048576⟩
  | 7 => ⟨clGameSaveSram,65536⟩
  | 8 => ⟨clGameSaveSram,131072⟩
  | _ => ⟨clGameSaveNone,0⟩

/-- The function `cl_gamedb_record_size`. -/
def clGamedbRecordSize (fileSize : ℕ) : Except ℤ ℕ :=
  if fileSize<5 then .error (-1)
  else if fileSize%5=0 then .ok 5
  else if fileSize%9=0 then .ok 9
  else .error (-2)

/-- The function `cl_gamedb_decode_record` on the bytes of a record, for one of the two
sizes. -/
def clGamedbDecodeRecord (record : List UInt8) (recordSize : ℕ) : GameSaveInfo :=
  let info := saveTypeFromShortCode (record.getD 4 0)
  if recordSize=9 then { info with size := loadLe32 (record.drop 5) } else info

/-- The record with a number. -/
def recordAt (records : List UInt8) (recordSize index : ℕ) : List UInt8 :=
  (records.drop (index*recordSize)).take recordSize

/-- How a record compares with a code, by `memcmp` of four bytes. -/
def compareCode (records : List UInt8) (recordSize : ℕ) (gameCode : List UInt8) (index : ℕ) :
    Ordering :=
  compare ((recordAt records recordSize index).take 4) gameCode

/-- The function `cl_gamedb_search_records`: its result and the information it leaves. -/
def clGamedbSearchRecords (records gameCode : List UInt8) : ℤ×GameSaveInfo :=
  let none' : GameSaveInfo := ⟨clGameSaveNone,0⟩
  match clGamedbRecordSize records.length with
  | .error ret => (ret,none')
  | .ok recordSize =>
    match bisect (compareCode records recordSize gameCode) 0 (records.length/recordSize) with
    | none => (-3,none')
    | some index => (0,clGamedbDecodeRecord (recordAt records recordSize index) recordSize)

/-- A game code: four bytes. -/
structure GameCode where
  /-- The bytes. -/
  bytes : List UInt8
  /-- There are four. -/
  length_bytes : bytes.length=4

/-- A record of a database. -/
structure Record where
  /-- The game. -/
  code : GameCode
  /-- The code of the save type. -/
  type : UInt8
  /-- The save size, where the format has it. -/
  size : UInt32

/-- The two record formats. -/
inductive Format where
  /-- Code and type. -/
  | short
  /-- Code, type and size. -/
  | long
deriving DecidableEq

/-- Bytes of a record. -/
def Format.recordSize : Format → ℕ
  | .short => 5
  | .long => 9

/-- A record in a file. -/
def Record.encode (format : Format) (record : Record) : List UInt8 :=
  match format with
  | .short => record.code.bytes++[record.type]
  | .long => record.code.bytes++record.type::storeLe32 record.size 4

/-- The file of a database. -/
def serialize (format : Format) (db : List Record) : List UInt8 :=
  db.flatMap (Record.encode format)

/-- What a record says about the save. -/
def Record.info (format : Format) (record : Record) : GameSaveInfo :=
  match format with
  | .short => saveTypeFromShortCode record.type
  | .long => { saveTypeFromShortCode record.type with size := record.size }

/-- The records are sorted by code. -/
def Sorted (db : List Record) : Prop :=
  db.Pairwise fun first second => compare first.code.bytes second.code.bytes≠.gt

/-- The search finds a record exactly if there is one with the code, and returns what it
says. -/
def Correct (format : Format) (db : List Record) (code : GameCode) : Prop :=
  ((clGamedbSearchRecords (serialize format db) code.bytes).1=0 ↔
      ∃ record∈db,record.code=code) ∧
    ((clGamedbSearchRecords (serialize format db) code.bytes).1=0 →
      ∃ record∈db,record.code=code ∧
        (clGamedbSearchRecords (serialize format db) code.bytes).2=record.info format)

section Records

variable {format : Format} {db : List Record} {code : GameCode} {index : ℕ}

theorem GameCode.ext {first second : GameCode} (h : first.bytes=second.bytes) : first=second := by
  cases first
  cases second
  cases h
  rfl

theorem length_encode (format : Format) (record : Record) :
    (record.encode format).length=format.recordSize := by
  have hcode := record.code.length_bytes
  cases format with
  | short => simp [Record.encode,Format.recordSize,hcode]
  | long => simp [Record.encode,Format.recordSize,storeLe32,hcode]

theorem recordSize_pos (format : Format) : 0<format.recordSize := by
  cases format <;> decide

theorem length_serialize (format : Format) (db : List Record) :
    (serialize format db).length=db.length*format.recordSize := by
  induction db with
  | nil => simp [serialize]
  | cons record db ih =>
    have hrest : serialize format (record::db)=record.encode format++serialize format db := by
      simp [serialize]
    rw [hrest,List.length_append,length_encode,ih,List.length_cons,Nat.succ_mul,Nat.add_comm]

/-- The bytes of a record of the file. -/
theorem recordAt_serialize (h : index<db.length) :
    recordAt (serialize format db) format.recordSize index=db[index].encode format := by
  induction db generalizing index with
  | nil => exact absurd h (Nat.not_lt_zero index)
  | cons record db ih =>
    have hlength := length_encode format record
    have hrest : serialize format (record::db)=record.encode format++serialize format db := by
      simp [serialize]
    unfold recordAt
    rw [hrest]
    cases index with
    | zero =>
      rw [Nat.zero_mul,List.drop_zero,← hlength]
      exact List.take_left
    | succ index =>
      have hindex : index<db.length := by
        simpa using h
      have hnext := ih hindex
      have hdrop : (index+1)*format.recordSize=
          (record.encode format).length+index*format.recordSize := by
        rw [hlength,Nat.succ_mul,Nat.add_comm]
      rw [hdrop,← List.drop_drop,List.drop_left]
      exact hnext

/-- The first bytes of a record are its code. -/
theorem take_encode (format : Format) (record : Record) :
    (record.encode format).take 4=record.code.bytes := by
  have hcode := record.code.length_bytes
  cases format with
  | short => simp [Record.encode,hcode]
  | long => simp [Record.encode,hcode]

/-- A record is decoded to what it says. -/
theorem decode_encode (format : Format) (record : Record) :
    clGamedbDecodeRecord (record.encode format) format.recordSize=record.info format := by
  have hcode := record.code.length_bytes
  cases format with
  | short =>
    have htype : (record.code.bytes++[record.type]).getD 4 0=record.type := by
      rw [List.getD_append_right _ _ _ _ (by omega),hcode]
      rfl
    simp only [clGamedbDecodeRecord,Record.encode,Format.recordSize,Record.info,htype]
    rfl
  | long =>
    have htype : (record.code.bytes++record.type::storeLe32 record.size 4).getD 4 0=
        record.type := by
      rw [List.getD_append_right _ _ _ _ (by omega),hcode]
      rfl
    have hsize : (record.code.bytes++record.type::storeLe32 record.size 4).drop 5=
        storeLe32 record.size 4 := by
      rw [List.drop_append,hcode,List.drop_of_length_le (by omega)]
      rfl
    have hload : loadLe32 (storeLe32 record.size 4)=record.size := by
      have hstored := loadLe32_stored record.size []
      rwa [List.append_nil] at hstored
    simp only [clGamedbDecodeRecord,Record.encode,Format.recordSize,Record.info,htype,hsize,
      hload]
    rfl

/-- How a record of the file compares with a code. -/
theorem compareCode_serialize (h : index<db.length) :
    compareCode (serialize format db) format.recordSize code.bytes index=
      compare db[index].code.bytes code.bytes := by
  unfold compareCode
  rw [recordAt_serialize h,take_encode]

/-- The answers of a sorted database are in order. -/
theorem ascending_of_sorted (h : Sorted db) :
    Ascending (compareCode (serialize format db) format.recordSize code.bytes) db.length := by
  have hpair : ∀ {i j},i≤j → (hj : j<db.length) → (hi : i<db.length) →
      (compare db[i].code.bytes db[j].code.bytes).isLE := by
    intro i j hij hj hi
    rcases Nat.lt_or_eq_of_le hij with hlt | heq
    · have hne := List.pairwise_iff_getElem.mp h i j hi hj hlt
      exact Ordering.isLE_iff_ne_gt.mpr hne
    · subst heq
      simp
  constructor
  · intro i j hij hj hless
    have hi : i<db.length := by omega
    rw [compareCode_serialize hj] at hless
    rw [compareCode_serialize hi]
    exact Std.TransCmp.lt_of_isLE_of_lt (hpair hij hj hi) hless
  · intro i j hij hj hgreater
    have hi : i<db.length := by omega
    rw [compareCode_serialize hi] at hgreater
    rw [compareCode_serialize hj]
    have hle := hpair hij hj hi
    have hswap := Std.OrientedCmp.gt_iff_lt.mp hgreater
    have hless := Std.TransCmp.lt_of_lt_of_isLE hswap hle
    exact Std.OrientedCmp.gt_iff_lt.mpr hless

/-- The size of a record is guessed right. -/
theorem recordSize_right (hpos : 0<db.length) (h : format=.short ∨ db.length%5≠0) :
    clGamedbRecordSize (serialize format db).length=.ok format.recordSize := by
  rw [length_serialize]
  unfold clGamedbRecordSize
  cases format with
  | short =>
    unfold Format.recordSize
    dsimp only
    rw [if_neg (by omega),if_pos (by omega)]
  | long =>
    have hcount : db.length%5≠0 := by
      rcases h with h | h
      · cases h
      · exact h
    unfold Format.recordSize
    dsimp only
    rw [if_neg (by omega),if_neg (by omega),if_pos (by omega)]

/-- A database whose record size is guessed right is searched correctly. -/
theorem correct_of_recordSize (hsorted : Sorted db)
    (hsize : clGamedbRecordSize (serialize format db).length=.ok format.recordSize) :
    Correct format db code := by
  have hcount : (serialize format db).length/format.recordSize=db.length := by
    rw [length_serialize]
    exact Nat.mul_div_left _ (recordSize_pos format)
  have hsearch : clGamedbSearchRecords (serialize format db) code.bytes=
      match bisect (compareCode (serialize format db) format.recordSize code.bytes) 0
        db.length with
      | none => (-3,⟨clGameSaveNone,0⟩)
      | some index => (0,clGamedbDecodeRecord
          (recordAt (serialize format db) format.recordSize index) format.recordSize) := by
    unfold clGamedbSearchRecords
    dsimp only
    rw [hsize]
    dsimp only
    rw [hcount]
  have hmember : (∃ index,index<db.length ∧
      compareCode (serialize format db) format.recordSize code.bytes index=.eq) ↔
        ∃ record∈db,record.code=code := by
    constructor
    · rintro ⟨index,hlt,heq⟩
      rw [compareCode_serialize hlt] at heq
      exact ⟨db[index],List.getElem_mem hlt,GameCode.ext (Std.LawfulEqOrd.eq_of_compare heq)⟩
    · rintro ⟨record,hmem,hcode⟩
      obtain ⟨index,hlt,hget⟩ := List.mem_iff_getElem.mp hmem
      refine ⟨index,hlt,?_⟩
      rw [compareCode_serialize hlt,hget,hcode]
      exact Std.ReflCmp.compare_self
  have hfound := bisect_isSome_iff (@ascending_of_sorted format db code hsorted)
  rw [hmember] at hfound
  unfold Correct
  rw [hsearch,← hfound]
  cases hbisect : bisect (compareCode (serialize format db) format.recordSize code.bytes) 0
      db.length with
  | none => simp
  | some index =>
    obtain ⟨-,hlt,heq⟩ := bisect_sound hbisect
    rw [compareCode_serialize hlt] at heq
    refine ⟨by simp,fun _ => ?_⟩
    refine ⟨db[index],List.getElem_mem hlt,GameCode.ext (Std.LawfulEqOrd.eq_of_compare heq),?_⟩
    dsimp only
    rw [recordAt_serialize hlt,decode_encode]

end Records

section Misread

/-- The bytes of a number, the most significant one first. -/
def bigEndian : ℕ → ℕ → List UInt8
  | 0,_ => []
  | digits+1,n => UInt8.ofNat (n/256^digits)::bigEndian digits (n%256^digits)

theorem length_bigEndian (digits n : ℕ) : (bigEndian digits n).length=digits := by
  induction digits generalizing n with
  | zero => rfl
  | succ digits ih =>
    have htail := ih (n%256^digits)
    simp [bigEndian,htail]

/-- Numbers are compared by their bytes. -/
theorem compare_bigEndian {digits m n : ℕ} (hlt : m<n) (hn : n<256^digits) :
    compare (bigEndian digits m) (bigEndian digits n)=.lt := by
  induction digits generalizing m n with
  | zero => omega
  | succ digits ih =>
    have hpow : 0<256^digits := Nat.pow_pos (by decide)
    have hsucc : 256^(digits+1)=256^digits*256 := Nat.pow_succ 256 digits
    have htop : n/256^digits<256 := by
      rw [hsucc] at hn
      exact Nat.div_lt_of_lt_mul hn
    have hle : m/256^digits≤n/256^digits := Nat.div_le_div_right hlt.le
    unfold bigEndian
    rw [List.compare_cons_cons]
    rcases Nat.lt_or_eq_of_le hle with hfirst | hfirst
    · have hbyte : compare (UInt8.ofNat (m/256^digits)) (UInt8.ofNat (n/256^digits))=.lt := by
        rw [Std.compare_eq_lt,UInt8.lt_iff_toNat_lt,
          UInt8.toNat_ofNat_of_lt' (by unfold UInt8.size; omega),
          UInt8.toNat_ofNat_of_lt' (by unfold UInt8.size; omega)]
        exact hfirst
      rw [hbyte]
      rfl
    · have hbyte : compare (UInt8.ofNat (m/256^digits)) (UInt8.ofNat (n/256^digits))=.eq := by
        rw [hfirst]
        exact Std.ReflCmp.compare_self
      have hrest : m%256^digits<n%256^digits := by
        have hm := Nat.div_add_mod m (256^digits)
        have hn' := Nat.div_add_mod n (256^digits)
        rw [hfirst] at hm
        omega
      rw [hbyte]
      exact ih hrest (Nat.mod_lt n hpow)

/-- A code for each number. -/
def numberedCode (i : ℕ) : GameCode where
  bytes := bigEndian 4 (0x01010101+i)
  length_bytes := length_bigEndian 4 _

/-- Records with increasing codes. -/
def numbered (n : ℕ) : List Record :=
  (List.range n).map fun i => ⟨numberedCode i,0,0⟩

theorem sorted_numbered {n : ℕ} (h : n*9<2^32) : Sorted (numbered n) := by
  unfold Sorted numbered
  rw [List.pairwise_map]
  refine List.Pairwise.imp_of_mem ?_ List.pairwise_lt_range
  intro i j hi hj hlt
  have hj' := List.mem_range.mp hj
  have hless : compare (bigEndian 4 (0x01010101+i)) (bigEndian 4 (0x01010101+j))=.lt :=
    compare_bigEndian (by omega) (by omega)
  unfold numberedCode
  dsimp only
  rw [hless]
  decide

/-- A byte of the file. -/
theorem getD_serialize {format : Format} {db : List Record} {index place : ℕ}
    (hindex : index<db.length) (hplace : place<format.recordSize) :
    (serialize format db).getD (index*format.recordSize+place) 0=
      (db[index].encode format).getD place 0 := by
  have hrecord := @recordAt_serialize format db index hindex
  rw [← hrecord]
  unfold recordAt
  simp only [List.getD_eq_getElem?_getD,List.getElem?_take_of_lt hplace,List.getElem?_drop]

/-- The type and the size of a numbered record are zero. -/
theorem getD_numbered_zero (n : ℕ) {position : ℕ} (h : 4≤position%9) :
    (serialize .long (numbered n)).getD position 0=0 := by
  by_cases hin : position<n*9
  · have hcount : (numbered n).length=n := by
      simp [numbered]
    have hindex : position/9<(numbered n).length := by
      omega
    have hbyte := @getD_serialize .long (numbered n) (position/9) (position%9) hindex
      (Nat.mod_lt position (by decide))
    have hnine : Format.recordSize .long=9 := rfl
    have hposition : position/9*Format.recordSize .long+position%9=position := by
      rw [hnine]
      omega
    have hrecord : (numbered n)[position/9]=⟨numberedCode (position/9),0,0⟩ := by
      simp [numbered]
    rw [hposition,hrecord] at hbyte
    rw [hbyte]
    have hcode := (numberedCode (position/9)).length_bytes
    unfold Record.encode
    dsimp only
    rw [List.getD_append_right _ _ _ _ (by omega),hcode]
    have hfive : position%9-4<5 := by
      omega
    interval_cases position%9-4 <;> rfl
  · have hlength := length_serialize .long (numbered n)
    have hcount : (numbered n).length=n := by
      simp [numbered]
    rw [hcount] at hlength
    refine List.getD_eq_default _ _ ?_
    rw [hlength]
    exact Nat.not_lt.mp hin

/-- The second code is not found at a multiple of five. -/
theorem compareCode_misread {n index : ℕ} (h : n*9<2^32) (hindex : index*5<n*9) :
    compareCode (serialize .long (numbered n)) 5 (numberedCode 1).bytes index≠.eq := by
  intro heq
  have hbytes := Std.LawfulEqOrd.eq_of_compare heq
  have hcount : (numbered n).length=n := by
    simp [numbered]
  -- Only the codes have four bytes in a row that are not zero.
  have hbyte : ∀ place,place<4 → (serialize .long (numbered n)).getD (index*5+place) 0=
      (numberedCode 1).bytes.getD place 0 := by
    intro place hplace
    rw [← hbytes]
    unfold recordAt
    simp only [List.getD_eq_getElem?_getD,List.getElem?_take_of_lt hplace,
      List.getElem?_take_of_lt (by omega : place<5),List.getElem?_drop]
  have hnonzero : ∀ place,place<4 → (numberedCode 1).bytes.getD place 0≠0 := by
    decide
  have haligned : index*5%9=0 := by
    by_contra hshifted
    by_cases hlate : 4≤ index*5%9
    · have hzero := getD_numbered_zero n hlate
      have hfirst := hbyte 0 (by decide)
      rw [Nat.add_zero,hzero] at hfirst
      exact hnonzero 0 (by decide) hfirst.symm
    · have hzero := @getD_numbered_zero n (index*5+(4-index*5%9)) (by omega)
      have hmiddle := hbyte (4-index*5%9) (by omega)
      rw [hzero] at hmiddle
      exact hnonzero (4-index*5%9) (by omega) hmiddle.symm
  have hrecord : index*5/9<(numbered n).length := by
    omega
  have hcode : (numberedCode (index*5/9)).bytes=(numberedCode 1).bytes := by
    have hwhole := @recordAt_serialize .long (numbered n) (index*5/9) hrecord
    have hnine : Format.recordSize .long=9 := rfl
    have hstart : index*5/9*Format.recordSize .long=index*5 := by
      rw [hnine]
      omega
    have hget : (numbered n)[index*5/9]=⟨numberedCode (index*5/9),0,0⟩ := by
      simp [numbered]
    have htake := take_encode .long (numbered n)[index*5/9]
    rw [← hwhole] at htake
    unfold recordAt at htake hbytes
    rw [hstart,List.take_take] at htake
    rw [List.take_take] at hbytes
    rw [hget] at htake
    exact htake.symm.trans hbytes
  have hself : compare (numberedCode 1).bytes (numberedCode 1).bytes=.eq :=
    Std.ReflCmp.compare_self
  have hsame : index*5/9=1 := by
    rcases Nat.lt_trichotomy (index*5/9) 1 with hless | hone | hmore
    · have hlt : compare (numberedCode (index*5/9)).bytes (numberedCode 1).bytes=.lt :=
        compare_bigEndian (by omega) (by decide)
      rw [hcode,hself] at hlt
      cases hlt
    · exact hone
    · have hlt : compare (numberedCode 1).bytes (numberedCode (index*5/9)).bytes=.lt :=
        compare_bigEndian (by omega) (by omega)
      rw [hcode,hself] at hlt
      cases hlt
  omega

/-- The second record of a misread database is not found. -/
theorem not_correct_numbered {n : ℕ} (hn : 0<n) (hfive : n%5=0) (h : n*9<2^32) :
    ¬Correct .long (numbered n) (numberedCode 1) := by
  intro hcorrect
  have hlength := length_serialize .long (numbered n)
  have hcount : (numbered n).length=n := by
    simp [numbered]
  have hbytes : (serialize .long (numbered n)).length=n*9 := by
    rw [hlength,hcount]
    rfl
  have hsize : clGamedbRecordSize (serialize .long (numbered n)).length=.ok 5 := by
    rw [hbytes]
    unfold clGamedbRecordSize
    rw [if_neg (by omega),if_pos (by omega)]
  have hbisect : bisect (compareCode (serialize .long (numbered n)) 5 (numberedCode 1).bytes) 0
      (n*9/5)=none := by
    cases hfound : bisect (compareCode (serialize .long (numbered n)) 5
        (numberedCode 1).bytes) 0 (n*9/5) with
    | none => rfl
    | some index =>
      obtain ⟨-,hlt,heq⟩ := bisect_sound hfound
      exact absurd heq (compareCode_misread h (by omega))
  have hresult : (clGamedbSearchRecords (serialize .long (numbered n))
      (numberedCode 1).bytes).1= -3 := by
    unfold clGamedbSearchRecords
    dsimp only
    rw [hsize]
    dsimp only
    rw [hbytes,hbisect]
  have hmember : ∃ record∈numbered n,record.code=numberedCode 1 :=
    ⟨⟨numberedCode 1,0,0⟩,List.mem_map.mpr ⟨1,List.mem_range.mpr (by omega),rfl⟩,rfl⟩
  have hzero := hcorrect.1.mpr hmember
  rw [hresult] at hzero
  exact absurd hzero (by decide)

end Misread

section Databases

/-- Databases of a number of records are searched correctly exactly if they have five byte
records or their number is not a multiple of five. -/
theorem search_correct_iff (format : Format) (n : ℕ) (hn : 0<n)
    (hsize : n*format.recordSize<2^32) :
    (∀ db : List Record,db.length=n → Sorted db → ∀ code,Correct format db code) ↔
      format=.short ∨ n%5≠0 := by
  constructor
  · intro hall
    cases format with
    | short => exact Or.inl rfl
    | long =>
      refine Or.inr fun hfive => ?_
      have hcount : (numbered n).length=n := by
        simp [numbered]
      exact not_correct_numbered hn hfive hsize
        (hall (numbered n) hcount (sorted_numbered hsize) (numberedCode 1))
  · intro hright db hlength hsorted code
    subst hlength
    exact correct_of_recordSize hsorted (recordSize_right hn hright)

/-- The second of four nine byte records is found. -/
theorem search_correct_four : Correct .long (numbered 4) (numberedCode 1) :=
  (search_correct_iff .long 4 (by decide) (by decide)).mpr (Or.inr (by decide)) (numbered 4)
    rfl (sorted_numbered (by decide)) (numberedCode 1)

/-- The second of five nine byte records is not found. -/
theorem search_misses : Sorted (numbered 5) ∧
    (∃ record∈numbered 5,record.code=numberedCode 1) ∧
    ¬Correct .long (numbered 5) (numberedCode 1) := by
  have hmember : (⟨numberedCode 1,0,0⟩ : Record)∈numbered 5 :=
    List.mem_map.mpr ⟨1,List.mem_range.mpr (by decide),rfl⟩
  exact ⟨sorted_numbered (by decide),⟨_,hmember,rfl⟩,
    not_correct_numbered (by decide) (by decide) (by decide)⟩

end Databases

end ChisLink.GameDatabase
