import ChisLink.CartSaveDriver
import ChisLink.LabelledRuns

/-!
# SRAM and EEPROM saves

On a chip that works, a save is an array of bytes: a write that succeeds puts its bytes
into the contents and a read returns the contents, both clipped at the size of the save.
The first bank is selected whenever the driver returns, even if the chip does not store
what is written to it.
-/

namespace ChisLink.CartSaveArrays

open AlignedTransfers CartSaveDriver DriverPrograms LabelledRuns

/-- How the save chip is seen. -/
structure SaveView (σ : Type) where
  /-- The contents. -/
  cells : σ → ℕ → UInt8
  /-- The bank in the window. -/
  bank : σ → ℕ

variable {σ α : Type}

section Contracts

variable (hw : CartHardware σ) (hooks : SaveHooks σ) (view : SaveView σ) (size : ℕ)

/-- The bank in the window changes only when one is selected. -/
structure Banked : Prop where
  /-- Not by a read. -/
  read_bank : ∀ a d,view.bank (hw.saveRead8 a d).2=view.bank d
  /-- Not by a write. -/
  write_bank : ∀ a v d,view.bank (hw.saveWrite8 a v d)=view.bank d
  /-- The hook selects one, if the save is larger than the window. -/
  switch : clCartGbaSramBankSize<size → ∃ switch,hooks.switchSramBank=some switch ∧
    ∀ b d,view.bank (switch b d)=b.toNat

/-- SRAM that works. -/
structure SramWorks : Prop extends Banked hw hooks view size where
  /-- A read returns what is at the address in the bank. -/
  read : ∀ a d,a< clCartGbaSramBankSize → view.bank d*clCartGbaSramBankSize+a<size →
    (hw.saveRead8 a d).1=view.cells d (view.bank d*clCartGbaSramBankSize+a)
  /-- It changes nothing. -/
  read_cells : ∀ a d,view.cells (hw.saveRead8 a d).2=view.cells d
  /-- A write changes the byte at the address in the bank. -/
  write_cells : ∀ a v d,a< clCartGbaSramBankSize → view.bank d*clCartGbaSramBankSize+a<size →
    view.cells (hw.saveWrite8 a v d)=
      splice (view.cells d) (view.bank d*clCartGbaSramBankSize+a) [v]
  /-- Selecting a bank changes none. -/
  switch_cells : ∀ switch,hooks.switchSramBank=some switch → ∀ b d,
    view.cells (switch b d)=view.cells d

/-- EEPROM that works. A write may fail, but one that succeeds has changed the unit. -/
structure EepromWorks : Prop where
  /-- There are two sizes. -/
  sizes : size=512 ∨ size=8192
  /-- A unit is read as it is. -/
  read : ∃ readUnit,hooks.readEepromUnit=some readUnit ∧ ∀ unit d,
    unit*clCartGbaEepromUnitSize<size →
    0≤(readUnit unit (eepromAddressBits size) d).1.1 ∧
    (readUnit unit (eepromAddressBits size) d).1.2=
      cellsAt (view.cells d) (unit*clCartGbaEepromUnitSize) clCartGbaEepromUnitSize ∧
    view.cells (readUnit unit (eepromAddressBits size) d).2=view.cells d ∧
    view.bank (readUnit unit (eepromAddressBits size) d).2=view.bank d
  /-- A unit is changed as a whole. -/
  write : ∃ writeUnit,hooks.writeEepromUnit=some writeUnit ∧ ∀ unit data d,
    unit*clCartGbaEepromUnitSize<size → data.length=clCartGbaEepromUnitSize →
    view.bank (writeUnit unit (eepromAddressBits size) data d).2=view.bank d ∧
    (0≤(writeUnit unit (eepromAddressBits size) data d).1 →
      view.cells (writeUnit unit (eepromAddressBits size) data d).2=
        splice (view.cells d) (unit*clCartGbaEepromUnitSize) data)

/-- The variables of the driver for a save of a kind and a size. -/
structure Configured (saveType : SaveType) (ctx : CartCtx) : Prop where
  /-- The save is there. -/
  save8 : ctx.save8=true
  /-- It can be accessed. -/
  linear : ctx.saveLinear=true
  /-- Its size. -/
  size_eq : ctx.saveSize=size
  /-- Its kind. -/
  type_eq : ctx.saveType=saveType

end Contracts

variable {hw : CartHardware σ} {hooks : SaveHooks σ} {view : SaveView σ} {size : ℕ}

/-- A save that was configured can be accessed if its size is one of its kind. -/
theorem configured_applySaveConfig (ctx : CartCtx) {saveType : SaveType} {saveBase : ℕ}
    (hlinear : saveTypeIsLinear saveType=true)
    (hsize : saveSizeIsFileAccessible saveType size=true) (hpos : 0<size) :
    Configured size saveType (applySaveConfig ctx saveType size saveBase) := by
  have hnormal : normalizeSaveType saveType=saveType ∧ saveType≠.none := by
    cases saveType <;> first | exact ⟨rfl,by decide⟩ | exact absurd hlinear (by decide)
  have hnot : ¬(saveType=.none ∨ size=0) := by
    rintro (h | h)
    · exact hnormal.2 h
    · omega
  unfold applySaveConfig
  rw [hnormal.1]
  dsimp only
  rw [if_neg hnot]
  exact ⟨rfl,by rw [hlinear,hsize]; rfl,rfl,rfl⟩

section Banks

variable {s : Cart σ}

/-- Nothing but the cartridge has changed. If the first bank was selected, it still is
unless the save has more. -/
structure Kept (view : SaveView σ) (size : ℕ) (s t : Cart σ) : Prop where
  /-- The variables. -/
  ctx : t.ctx=s.ctx
  /-- The register. -/
  waitcnt : t.waitcnt=s.waitcnt
  /-- The bank. -/
  bank : view.bank s.dev=0 → view.bank t.dev=0 ∨ clCartGbaSramBankSize<size

/-- Nothing but the cartridge has changed, and not that the first bank is selected. -/
structure Home (view : SaveView σ) (s t : Cart σ) : Prop where
  /-- The variables. -/
  ctx : t.ctx=s.ctx
  /-- The register. -/
  waitcnt : t.waitcnt=s.waitcnt
  /-- The bank. -/
  bank : view.bank s.dev=0 → view.bank t.dev=0

theorem Home.kept {t : Cart σ} (h : Home view s t) (size : ℕ) : Kept view size s t :=
  ⟨h.ctx,h.waitcnt,fun hzero => Or.inl (h.bank hzero)⟩

theorem home_self : Home view s s := ⟨rfl,rfl,fun h => h⟩

/-- Selecting the first bank. -/
theorem wp_switchSramBank_zero (hbanked : Banked hw hooks view size)
    (hsize : s.ctx.saveSize=size) {t : Cart σ} (ht : Kept view size s t) :
    wp (switchSramBank hooks 0) (fun _ u => Home view s u) (fun _ => False) t := by
  unfold switchSramBank getCtx
  rw [wp_bind,wp_inspect,ht.ctx,hsize]
  split
  next hlarge =>
    obtain ⟨switch,hswitch,hbank⟩ := hbanked.switch hlarge
    rw [hswitch]
    exact ⟨ht.ctx,ht.waitcnt,fun _ => hbank 0 t.dev⟩
  next hsmall =>
    exact ⟨ht.ctx,ht.waitcnt,fun hzero => (ht.bank hzero).resolve_right hsmall⟩

/-- Selecting any bank. -/
theorem wp_switchSramBank_kept (hbanked : Banked hw hooks view size)
    (hsize : s.ctx.saveSize=size) (bank : UInt8) {t : Cart σ} (ht : Kept view size s t) :
    wp (switchSramBank hooks bank) (fun _ u => Kept view size s u) (fun _ => False) t := by
  unfold switchSramBank getCtx
  rw [wp_bind,wp_inspect,ht.ctx,hsize]
  split
  next hlarge =>
    obtain ⟨switch,hswitch,-⟩ := hbanked.switch hlarge
    rw [hswitch]
    exact ⟨ht.ctx,ht.waitcnt,fun _ => Or.inr hlarge⟩
  · exact ht

theorem wp_saveRead8_kept (hbanked : Banked hw hooks view size) (a : ℕ) {t : Cart σ}
    (ht : Kept view size s t) :
    wp (saveRead8 hw a) (fun _ u => Kept view size s u) (fun _ => False) t :=
  ⟨ht.ctx,ht.waitcnt,by
    change _ → view.bank (hw.saveRead8 a t.dev).2=0 ∨ _
    rw [hbanked.read_bank]
    exact ht.bank⟩

theorem wp_saveWrite8_kept (hbanked : Banked hw hooks view size) (a : ℕ) (v : UInt8)
    {t : Cart σ} (ht : Kept view size s t) :
    wp (saveWrite8 hw a v) (fun _ u => Kept view size s u) (fun _ => False) t :=
  ⟨ht.ctx,ht.waitcnt,by
    change _ → view.bank (hw.saveWrite8 a v t.dev)=0 ∨ _
    rw [hbanked.write_bank]
    exact ht.bank⟩

theorem wp_writeChecked_kept (hbanked : Banked hw hooks view size) (a : ℕ) (v : UInt8)
    {t : Cart σ} (ht : Kept view size s t) :
    wp (writeChecked hw a v) (fun _ u => Kept view size s u) (fun _ => False) t := by
  unfold writeChecked
  refine wp_seq (wp_saveWrite8_kept hbanked a v ht) ?_
  intro _ u hu
  rw [wp_bind]
  exact wp_saveRead8_kept hbanked a hu

theorem wp_writeTwice_kept (hbanked : Banked hw hooks view size) (a : ℕ) (v : UInt8) {t : Cart σ}
    (ht : Kept view size s t) :
    wp (writeTwice hw a v) (fun _ u => Kept view size s u) (fun _ => False) t := by
  unfold writeTwice
  refine wp_seq (wp_writeChecked_kept hbanked a v ht) ?_
  intro stored u hu
  split
  · exact hu
  · exact wp_writeChecked_kept hbanked a v hu

theorem wp_readWindow_kept (hbanked : Banked hw hooks view size) (a n : ℕ) {t : Cart σ}
    (ht : Kept view size s t) :
    wp (readWindow hw a n) (fun _ u => Kept view size s u) (fun _ => False) t := by
  induction n generalizing a t with
  | zero => exact ht
  | succ n ih =>
    unfold readWindow
    refine wp_seq (wp_saveRead8_kept hbanked a ht) ?_
    intro value u hu
    rw [wp_bind]
    exact ih (a+1) hu

/-- Writing bytes: if one is not stored, the first bank is selected. -/
theorem wp_writeWindow_kept (hbanked : Banked hw hooks view size)
    (hsize : s.ctx.saveSize=size) (a : ℕ) (src : List UInt8) {t : Cart σ}
    (ht : Kept view size s t) :
    wp (writeWindow hw hooks a src)
      (fun ret u => (ret<0 ∧ Home view s u) ∨ (0≤ ret ∧ Kept view size s u))
      (fun _ => False) t := by
  induction src generalizing a t with
  | nil => exact Or.inr ⟨Int.le_refl 0,ht⟩
  | cons v src ih =>
    unfold writeWindow
    refine wp_seq (wp_writeTwice_kept hbanked a v ht) ?_
    intro stored u hu
    split
    · exact ih (a+1) hu
    · refine wp_seq (wp_switchSramBank_zero hbanked hsize hu) ?_
      exact fun _ _ hhome => Or.inl ⟨Int.negSucc_lt_zero 6,hhome⟩

/-- Every exit of a write to SRAM has the first bank. -/
theorem wp_linearSaveWrite_home (hbanked : Banked hw hooks view size)
    (hsize : s.ctx.saveSize=size) (offset : ℕ) (src : List UInt8) {t : Cart σ}
    (ht : Kept view size s t) :
    wp (linearSaveWrite hw hooks offset src) (fun _ u => Home view s u) (fun _ => False) t := by
  unfold linearSaveWrite
  refine wp_seq (wp_writePieces (Q := fun _ u => Home view s u)
    (I := fun _ u => Kept view size s u) (by decide) ?_ ht) ?_
  · intro done piece rest u _ _ _ hu
    unfold writeBankPiece
    refine wp_seq (wp_switchSramBank_kept hbanked hsize _ hu) ?_
    exact fun _ v hv => wp_writeWindow_kept hbanked hsize _ piece hv
  · rintro ret u (⟨hneg,hu⟩ | ⟨hzero,hu⟩)
    · rw [if_pos hneg]
      exact hu
    · rw [if_neg (by omega),wp_bind]
      exact wp_switchSramBank_zero hbanked hsize hu

/-- So has every exit of a read. -/
theorem wp_linearSaveRead_home (hbanked : Banked hw hooks view size)
    (hsize : s.ctx.saveSize=size) (htype : s.ctx.saveType≠.flash) (offset length : ℕ)
    {t : Cart σ} (ht : Kept view size s t) :
    wp (linearSaveRead hw hooks offset length) (fun _ u => Home view s u)
      (fun _ => False) t := by
  unfold linearSaveRead getCtx
  rw [wp_bind,wp_inspect,ht.ctx,if_neg htype]
  refine wp_seq (wp_readPieces (Q := fun _ u => Kept view size s u)
    (V := fun _ _ _ => True) (I := fun _ u => Kept view size s u) (by decide)
    (fun _ => trivial) (fun _ _ _ _ _ _ _ => trivial) ?_ ht) ?_
  · intro k n u _ _ _ hu
    unfold readBankPiece selectBank
    rw [if_neg htype]
    refine wp_seq (wp_switchSramBank_kept hbanked hsize _ hu) ?_
    intro _ v hv
    refine wp_seq (wp_readWindow_kept hbanked _ n hv) ?_
    exact fun _ _ hw => ⟨trivial,hw⟩
  · intro reply u hreply
    have hu : Kept view size s u := by
      cases reply with
      | error ret => exact hreply
      | ok data => exact hreply.2
    rw [wp_bind]
    exact wp_switchSramBank_zero hbanked hsize hu

end Banks

section Contents

variable {s : Cart σ} {c : ℕ → UInt8} {bank : ℕ}

/-- Nothing but the cartridge has changed, which has some contents and a bank. -/
structure Holds (view : SaveView σ) (s : Cart σ) (c : ℕ → UInt8) (bank : ℕ) (t : Cart σ) :
    Prop where
  /-- The variables. -/
  ctx : t.ctx=s.ctx
  /-- The register. -/
  waitcnt : t.waitcnt=s.waitcnt
  /-- The contents. -/
  cells_eq : view.cells t.dev=c
  /-- The bank. -/
  bank_eq : view.bank t.dev=bank

theorem wp_switchSramBank (hworks : SramWorks hw hooks view size) (hsize : s.ctx.saveSize=size)
    (n : UInt8) {t : Cart σ} (ht : Holds view s c bank t) :
    wp (switchSramBank hooks n)
      (fun _ u => Holds view s c (if clCartGbaSramBankSize<size then n.toNat else bank) u)
      (fun _ => False) t := by
  unfold switchSramBank getCtx
  rw [wp_bind,wp_inspect,ht.ctx,hsize]
  split
  next hlarge =>
    obtain ⟨switch,hswitch,hbank⟩ := hworks.switch hlarge
    rw [hswitch]
    exact ⟨ht.ctx,ht.waitcnt,(hworks.switch_cells switch hswitch n t.dev).trans ht.cells_eq,
      hbank n t.dev⟩
  · exact ht

theorem wp_saveRead8 (hworks : SramWorks hw hooks view size) {a : ℕ}
    (ha : a< clCartGbaSramBankSize) (hin : bank*clCartGbaSramBankSize+a<size) {t : Cart σ}
    (ht : Holds view s c bank t) :
    wp (saveRead8 hw a)
      (fun value u => value=c (bank*clCartGbaSramBankSize+a) ∧ Holds view s c bank u)
      (fun _ => False) t := by
  have hbank := ht.bank_eq
  have hread := hworks.read a t.dev ha (by rw [hbank]; exact hin)
  rw [hbank,ht.cells_eq] at hread
  exact ⟨hread,ht.ctx,ht.waitcnt,(hworks.read_cells a t.dev).trans ht.cells_eq,
    (hworks.read_bank a t.dev).trans hbank⟩

/-- The bytes of a part of the window. -/
theorem wp_readWindow (hworks : SramWorks hw hooks view size) {a n : ℕ}
    (ha : a+n≤ clCartGbaSramBankSize) (hin : bank*clCartGbaSramBankSize+a+n≤ size)
    {t : Cart σ} (ht : Holds view s c bank t) :
    wp (readWindow hw a n)
      (fun data u => data=cellsAt c (bank*clCartGbaSramBankSize+a) n ∧ Holds view s c bank u)
      (fun _ => False) t := by
  induction n generalizing a t with
  | zero => exact ⟨rfl,ht⟩
  | succ n ih =>
    unfold readWindow
    refine wp_seq (wp_saveRead8 hworks (by omega) (by omega) ht) ?_
    rintro value u ⟨rfl,hu⟩
    refine wp_seq (ih (a := a+1) (by omega) (by omega) hu) ?_
    rintro rest v ⟨rfl,hv⟩
    refine ⟨?_,hv⟩
    have hcells := cellsAt_add c (bank*clCartGbaSramBankSize+a) 1 n
    rw [Nat.add_comm n 1,hcells,Nat.add_assoc]
    rfl

/-- A byte that is written is there. -/
theorem wp_writeChecked (hworks : SramWorks hw hooks view size) {a : ℕ}
    (ha : a< clCartGbaSramBankSize) (hin : bank*clCartGbaSramBankSize+a<size) (value : UInt8)
    {t : Cart σ} (ht : Holds view s c bank t) :
    wp (writeChecked hw a value) (fun stored u => stored=true ∧
        Holds view s (splice c (bank*clCartGbaSramBankSize+a) [value]) bank u)
      (fun _ => False) t := by
  have hbank := ht.bank_eq
  have hcells := hworks.write_cells a value t.dev ha (by rw [hbank]; exact hin)
  rw [hbank,ht.cells_eq] at hcells
  have hwritten : Holds view s (splice c (bank*clCartGbaSramBankSize+a) [value]) bank
      {t with dev := hw.saveWrite8 a value t.dev} :=
    ⟨ht.ctx,ht.waitcnt,hcells,(hworks.write_bank a value t.dev).trans hbank⟩
  have hvalue := splice_head c (bank*clCartGbaSramBankSize+a) value []
  have hwrite : wp (saveWrite8 hw a value) (fun _ u =>
      Holds view s (splice c (bank*clCartGbaSramBankSize+a) [value]) bank u)
      (fun _ => False) t := hwritten
  unfold writeChecked
  refine wp_seq hwrite ?_
  intro _ u hu
  refine wp_seq (wp_saveRead8 hworks ha hin hu) ?_
  rintro now v ⟨rfl,hv⟩
  exact ⟨decide_eq_true hvalue,hv⟩

/-- The bytes that are written are there. -/
theorem wp_writeWindow (hworks : SramWorks hw hooks view size) {a : ℕ} {src : List UInt8}
    (ha : a+src.length≤ clCartGbaSramBankSize)
    (hin : bank*clCartGbaSramBankSize+a+src.length≤ size) {t : Cart σ}
    (ht : Holds view s c bank t) :
    wp (writeWindow hw hooks a src) (fun ret u => ret=0 ∧
        Holds view s (splice c (bank*clCartGbaSramBankSize+a) src) bank u)
      (fun _ => False) t := by
  induction src generalizing a c t with
  | nil =>
    rw [splice_nil]
    exact ⟨rfl,ht⟩
  | cons value src ih =>
    rw [List.length_cons] at ha hin
    unfold writeWindow writeTwice
    rw [wp_bind]
    refine wp_seq (wp_writeChecked hworks (by omega) (by omega) value ht) ?_
    rintro stored u ⟨rfl,hu⟩
    rw [if_pos rfl,wp_pure,if_pos rfl,splice_cons,Nat.add_assoc]
    exact ih (a := a+1) (by omega) (by omega) hu

/-- A piece lies in the bank that was selected for it. -/
theorem pieceBank {absolute n : ℕ} (hmax : size≤ clCartGbaMaxLinearSaveSize) (hn : 0<n)
    (hin : absolute+n≤ size) (hbank : bank=0 ∨ clCartGbaSramBankSize<size) :
    (if clCartGbaSramBankSize<size then
        (UInt8.ofNat (absolute/clCartGbaSramBankSize)).toNat else bank)*clCartGbaSramBankSize+
      absolute%clCartGbaSramBankSize=absolute := by
  unfold clCartGbaMaxLinearSaveSize at hmax
  unfold clCartGbaSramBankSize at hbank ⊢
  rw [UInt8.toNat_ofNat']
  split <;> omega

/-- Reading the save. -/
theorem wp_linearSaveRead (hworks : SramWorks hw hooks view size)
    (hconfig : Configured size .sram s.ctx) (hmax : size≤ clCartGbaMaxLinearSaveSize)
    {offset length : ℕ} (hin : offset+length≤ size) {t : Cart σ} (ht : Holds view s c 0 t) :
    wp (linearSaveRead hw hooks offset length)
      (fun data u => data=cellsAt c offset length ∧ Holds view s c 0 u)
      (fun _ => False) t := by
  unfold linearSaveRead getCtx
  rw [wp_bind,wp_inspect,ht.ctx,hconfig.type_eq,if_neg (by decide)]
  refine wp_seq (wp_readPieces_cells (Q := fun _ _ => False) c
    (I := fun _ u => ∃ bank,Holds view s c bank u ∧ (bank=0 ∨ clCartGbaSramBankSize<size))
    (by decide) ?_ ⟨0,ht,Or.inl rfl⟩) ?_
  · rintro k n u hk hn hpiece ⟨bank,hu,hbank⟩
    have haddress := @pieceBank size bank (offset+k) n hmax hn (by omega) hbank
    unfold readBankPiece selectBank
    rw [if_neg (by decide)]
    refine wp_seq (wp_switchSramBank hworks hconfig.size_eq _ hu) ?_
    intro _ v hv
    refine wp_seq (wp_readWindow hworks hpiece (by omega) hv) ?_
    rintro data w ⟨rfl,hw⟩
    rw [haddress]
    refine ⟨rfl,_,hw,?_⟩
    split
    next hlarge => exact Or.inr hlarge
    · exact hbank
  · intro reply u hreply
    cases reply with
    | error ret => exact hreply.elim
    | ok data =>
      obtain ⟨rfl,bank,hu,hbank⟩ := hreply
      refine wp_seq (wp_switchSramBank hworks hconfig.size_eq 0 hu) ?_
      intro _ v hv
      refine ⟨rfl,?_⟩
      have hzero : (if clCartGbaSramBankSize<size then (0 : UInt8).toNat else bank)=0 := by
        split
        · rfl
        next hsmall => exact hbank.resolve_right hsmall
      rw [hzero] at hv
      exact hv

/-- Writing the save. -/
theorem wp_linearSaveWrite (hworks : SramWorks hw hooks view size)
    (hconfig : Configured size .sram s.ctx) (hmax : size≤ clCartGbaMaxLinearSaveSize)
    {offset : ℕ} {src : List UInt8} (hin : offset+src.length≤ size) {t : Cart σ}
    (ht : Holds view s c 0 t) :
    wp (linearSaveWrite hw hooks offset src)
      (fun ret u => ret=0 ∧ Holds view s (splice c offset src) 0 u) (fun _ => False) t := by
  unfold linearSaveWrite
  refine wp_seq (wp_writePieces (Q := fun _ _ => False)
    (I := fun done u => ∃ bank,Holds view s (splice c offset done) bank u ∧
      (bank=0 ∨ clCartGbaSramBankSize<size))
    (by decide) ?_ ⟨0,by rw [splice_nil]; exact ht,Or.inl rfl⟩) ?_
  · rintro done piece rest u hsrc hpiece hfits ⟨bank,hu,hbank⟩
    have hlength := congrArg List.length hsrc
    rw [List.length_append,List.length_append] at hlength
    have hpos := List.length_pos_iff.mpr hpiece
    have haddress := @pieceBank size bank (offset+done.length) piece.length hmax hpos
      (by omega) hbank
    unfold writeBankPiece
    refine wp_seq (wp_switchSramBank hworks hconfig.size_eq _ hu) ?_
    intro _ v hv
    refine wp_post (wp_writeWindow hworks hfits (by omega) hv) ?_
    rintro ret w ⟨rfl,hw⟩
    rw [haddress,← splice_append] at hw
    refine Or.inr ⟨Int.le_refl 0,_,hw,?_⟩
    split
    next hlarge => exact Or.inr hlarge
    · exact hbank
  · rintro ret u (⟨-,hfalse⟩ | ⟨rfl,bank,hu,hbank⟩)
    · exact hfalse.elim
    · rw [if_neg (Int.lt_irrefl 0)]
      refine wp_seq (wp_switchSramBank hworks hconfig.size_eq 0 hu) ?_
      intro _ v hv
      refine ⟨rfl,?_⟩
      have hzero : (if clCartGbaSramBankSize<size then (0 : UInt8).toNat else bank)=0 := by
        split
        · rfl
        next hsmall => exact hbank.resolve_right hsmall
      rw [hzero] at hv
      exact hv

/-- Reading EEPROM: a part of a unit is cut out of it. -/
theorem wp_eepromReadBytes (hworks : EepromWorks hooks view size)
    (hconfig : Configured size .eeprom s.ctx) {offset length : ℕ}
    (hin : offset+length≤ size) {t : Cart σ} (ht : Holds view s c bank t) :
    wp (eepromReadBytes hooks offset length) (fun reply u => match reply with
      | .error _ => False
      | .ok data => data=cellsAt c offset length ∧ Holds view s c bank u)
      (fun _ => False) t := by
  obtain ⟨readUnit,hhook,hread⟩ := hworks.read
  unfold eepromReadBytes getCtx
  rw [hhook]
  dsimp only
  rw [wp_bind,wp_inspect,ht.ctx,hconfig.size_eq]
  refine wp_post (wp_readPieces_cells (Q := fun _ _ => False) c
    (I := fun _ u => Holds view s c bank u) (by decide) ?_ ht)
    (fun reply u hreply => by cases reply <;> exact hreply)
  intro k n u hk hn hpiece hu
  have haddress := Nat.div_add_mod' (offset+k) clCartGbaEepromUnitSize
  obtain ⟨hret,hdata,hcells,hbank⟩ := hread ((offset+k)/clCartGbaEepromUnitSize) u.dev (by omega)
  unfold readUnitPiece
  rw [wp_bind]
  change wp (if _ then _ else _) _ _ _
  dsimp only
  rw [if_neg (by omega)]
  refine ⟨?_,hu.ctx,hu.waitcnt,hcells.trans hu.cells_eq,hbank.trans hu.bank_eq⟩
  rw [hdata,hu.cells_eq,cellsAt_part c _ hpiece,haddress]

/-- Writing EEPROM: if no unit fails, the bytes are there. -/
theorem wp_eepromWriteBytes (hworks : EepromWorks hooks view size)
    (hconfig : Configured size .eeprom s.ctx) {offset : ℕ} {src : List UInt8}
    (hin : offset+src.length≤ size) {t : Cart σ} (ht : Holds view s c 0 t) :
    wp (eepromWriteBytes hooks offset src)
      (fun ret u => Home view s u ∧ (0≤ ret → Holds view s (splice c offset src) 0 u))
      (fun _ => False) t := by
  obtain ⟨readUnit,hhook,hread⟩ := hworks.read
  obtain ⟨writeUnit,hhook',hwrite⟩ := hworks.write
  unfold eepromWriteBytes getCtx
  rw [hhook,hhook']
  dsimp only
  rw [wp_bind,wp_inspect,ht.ctx,hconfig.size_eq]
  refine wp_post (wp_writePieces (Q := fun _ u => Home view s u)
    (I := fun done u => Holds view s (splice c offset done) 0 u) (by decide) ?_
    (by rw [splice_nil]; exact ht)) ?_
  · intro done piece rest u hsrc hpiece hfits hu
    have hlength := congrArg List.length hsrc
    rw [List.length_append,List.length_append] at hlength
    have hpos := List.length_pos_iff.mpr hpiece
    have haddress := Nat.div_add_mod' (offset+done.length) clCartGbaEepromUnitSize
    obtain ⟨hret,hdata,hcells,hbank⟩ :=
      hread ((offset+done.length)/clCartGbaEepromUnitSize) u.dev (by omega)
    -- what a write of the unit comes to, after it was read or without
    have hunit : ∀ (data : List UInt8) (v : Cart σ),data.length=clCartGbaEepromUnitSize →
        splice (splice c offset done)
          ((offset+done.length)/clCartGbaEepromUnitSize*clCartGbaEepromUnitSize) data=
          splice c offset (done++piece) →
        Holds view s (splice c offset done) 0 v →
        wp (onDevice (writeUnit ((offset+done.length)/clCartGbaEepromUnitSize)
            (eepromAddressBits size) data))
          (fun ret w => (ret<0 ∧ Home view s w) ∨
            (0≤ ret ∧ Holds view s (splice c offset (done++piece)) 0 w))
          (fun _ => False) v := by
      intro data v hsize hresult hv
      obtain ⟨hbank',hstored⟩ := hwrite ((offset+done.length)/clCartGbaEepromUnitSize) data v.dev
        (by omega) hsize
      have hhome := hbank'.trans hv.bank_eq
      by_cases hneg : (writeUnit ((offset+done.length)/clCartGbaEepromUnitSize)
          (eepromAddressBits size) data v.dev).1<0
      · exact Or.inl ⟨hneg,hv.ctx,hv.waitcnt,fun _ => hhome⟩
      · have hnow := hstored (by omega)
        rw [hv.cells_eq,hresult] at hnow
        exact Or.inr ⟨Int.not_lt.mp hneg,hv.ctx,hv.waitcnt,hnow,hhome⟩
    unfold writeUnitPiece
    dsimp only
    split
    next hpart =>
      rw [wp_bind]
      change wp (if _ then _ else _) _ _ _
      dsimp only
      rw [if_neg (by omega),hdata,hu.cells_eq]
      refine hunit _ _ ?_ ?_ ⟨hu.ctx,hu.waitcnt,hcells.trans hu.cells_eq,hbank.trans hu.bank_eq⟩
      · rw [List.length_append,List.length_append,List.length_take,List.length_drop,
          length_cellsAt]
        omega
      · rw [splice_patch _ _ piece hfits,haddress,← splice_append]
    next hwhole =>
      have hall : piece.length=clCartGbaEepromUnitSize := not_not.mp hwhole
      refine hunit piece u hall ?_ hu
      have hstart : (offset+done.length)%clCartGbaEepromUnitSize=0 := by omega
      have hunitAddress : (offset+done.length)/clCartGbaEepromUnitSize*clCartGbaEepromUnitSize=
          offset+done.length := by omega
      rw [hunitAddress,← splice_append]
  · rintro ret u (⟨hneg,hu⟩ | ⟨rfl,hu⟩)
    · exact ⟨hu,fun hpos => absurd hneg (by omega)⟩
    · exact ⟨⟨hu.ctx,hu.waitcnt,fun _ => hu.bank_eq⟩,fun _ => hu⟩

end Contents

section Calls

variable (hw : CartHardware σ) (hooks : SaveHooks σ) (view : SaveView σ)

/-- A save on a chip that works. -/
inductive Works : SaveType → ℕ → Prop where
  /-- SRAM, in one bank or two. -/
  | sram {size : ℕ} (works : SramWorks hw hooks view size) (pos : 0<size)
    (max : size≤ clCartGbaMaxLinearSaveSize) : Works .sram size
  /-- EEPROM. -/
  | eeprom {size : ℕ} (works : EepromWorks hooks view size) : Works .eeprom size

/-- Between two calls the first bank is selected. -/
structure Standing (size : ℕ) (saveType : SaveType) (s : Cart σ) : Prop where
  /-- The save is configured. -/
  configured : Configured size saveType s.ctx
  /-- The bank. -/
  bank : view.bank s.dev=0

/-- A call on the save. -/
inductive SaveCall where
  /-- Read so many bytes. -/
  | read (offset length : ℕ)
  /-- Write some bytes. -/
  | write (offset : ℕ) (src : List UInt8)

/-- The state after a call. -/
def callSave (s : Cart σ) : SaveCall → Option (Cart σ)
  | .read offset length => some (gbaRead hw hooks .save offset length s).2
  | .write offset src => some (gbaWrite hw hooks .save offset src s).2

/-- A read returns some contents, clipped at the size, and changes nothing. Offsets have
thirty-two bits. -/
def ReadsAs (size : ℕ) (contents : ℕ → UInt8) (s : Cart σ) : Prop :=
  ∀ offset length,wp (gbaRead hw hooks .save offset length)
    (fun reply t =>
      reply=(if offset≤0xffffffff then (0,cellsAt contents offset (min (size-offset) length))
        else (-1,[])) ∧
      view.cells t.dev=contents ∧ view.bank t.dev=0)
    (fun _ => False) s

/-- A write that succeeds puts the bytes up to the size into the contents, which reads
return then. -/
def Splices (size offset : ℕ) (src : List UInt8) (s : Cart σ) : Prop :=
  wp (gbaWrite hw hooks .save offset src)
    (fun reply t => view.bank t.dev=0 ∧ (reply.1=0 →
      reply.2=(src.take (size-offset)).length ∧
      view.cells t.dev=splice (view.cells s.dev) offset (src.take (size-offset)) ∧
      ReadsAs hw hooks view size
        (splice (view.cells s.dev) offset (src.take (size-offset))) t))
    (fun _ => False) s

/-- What a call is to do. -/
def Right (size : ℕ) (s : Cart σ) : SaveCall → Prop
  | .read _ _ => ReadsAs hw hooks view size (view.cells s.dev) s
  | .write offset src => Splices hw hooks view size offset src s

variable {hw hooks view} {saveType : SaveType} {s : Cart σ}

theorem Works.size_pos (h : Works hw hooks view saveType size) : 0<size := by
  cases h with
  | sram _ hpos => exact hpos
  | eeprom hworks => rcases hworks.sizes with rfl | rfl <;> decide

/-- What a read comes to. -/
theorem wp_gbaRead (hworks : Works hw hooks view saveType size)
    (hs : Standing view size saveType s) (offset length : ℕ) :
    wp (gbaRead hw hooks .save offset length)
      (fun reply t => reply=(if offset≤0xffffffff then
          (0,cellsAt (view.cells s.dev) offset (min (size-offset) length)) else (-1,[])) ∧
        Holds view s (view.cells s.dev) 0 t)
      (fun _ => False) s := by
  have hself : Holds view s (view.cells s.dev) 0 s := ⟨rfl,rfl,rfl,hs.bank⟩
  have hpos := hworks.size_pos
  unfold gbaRead
  split
  next hlarge => exact ⟨by rw [if_neg (by omega)],hself⟩
  next hsmall =>
    have hoffset : offset≤0xffffffff := by omega
    simp only [hoffset,if_true]
    unfold readSave getCtx
    rw [wp_bind,wp_inspect,hs.configured.save8,hs.configured.linear,hs.configured.size_eq]
    have hthere : ¬((true=false) ∨ size=0 ∨ (true=false)) := by
      rintro (h | h | h)
      · cases h
      · omega
      · cases h
    rw [if_neg hthere]
    split
    next hend =>
      have hnone : size-offset=0 := by omega
      rw [hnone,Nat.zero_min]
      exact ⟨rfl,hself⟩
    next hin =>
      have hclip : offset+min (size-offset) length≤ size := by omega
      rw [hs.configured.type_eq]
      cases hworks with
      | sram hworks _ hmax =>
        rw [if_neg (by decide)]
        refine wp_seq (wp_linearSaveRead hworks hs.configured hmax hclip hself) ?_
        rintro data t ⟨rfl,ht⟩
        exact ⟨rfl,ht⟩
      | eeprom hworks =>
        rw [if_pos rfl]
        refine wp_seq (wp_eepromReadBytes hworks hs.configured hclip hself) ?_
        intro reply t hreply
        cases reply with
        | error ret => exact hreply.elim
        | ok data =>
          obtain ⟨rfl,ht⟩ := hreply
          exact ⟨rfl,ht⟩

/-- What a write comes to. -/
theorem wp_gbaWrite (hworks : Works hw hooks view saveType size)
    (hs : Standing view size saveType s) (offset : ℕ) (src : List UInt8) :
    wp (gbaWrite hw hooks .save offset src)
      (fun reply t => Home view s t ∧ (reply.1=0 →
        reply.2=(src.take (size-offset)).length ∧
        view.cells t.dev=splice (view.cells s.dev) offset (src.take (size-offset))))
      (fun _ => False) s := by
  have hself : Holds view s (view.cells s.dev) 0 s := ⟨rfl,rfl,rfl,hs.bank⟩
  have hhome := @home_self σ view s
  unfold gbaWrite
  split
  next hlarge => exact ⟨hhome,fun h => absurd h (by decide)⟩
  next hsmall =>
    unfold writeSave getCtx
    dsimp only
    rw [wp_bind,wp_inspect,hs.configured.save8,hs.configured.linear,hs.configured.size_eq]
    have hthere : ¬((true=false) ∨ (true=false)) := by
      rintro (h | h) <;> cases h
    rw [if_neg hthere]
    split
    next hend =>
      have hnone : size-offset=0 := by omega
      rw [hnone,List.take_zero,splice_nil]
      exact ⟨hhome,fun _ => ⟨rfl,rfl⟩⟩
    next hin =>
      have hclip : offset+(src.take (size-offset)).length≤ size := by
        rw [List.length_take]
        omega
      rw [hs.configured.type_eq]
      cases hworks with
      | sram hworks _ hmax =>
        rw [if_neg (by decide),if_neg (by decide)]
        refine wp_seq (wp_linearSaveWrite hworks hs.configured hmax hclip hself) ?_
        rintro ret t ⟨rfl,ht⟩
        exact ⟨⟨ht.ctx,ht.waitcnt,fun _ => ht.bank_eq⟩,fun _ => ⟨rfl,ht.cells_eq⟩⟩
      | eeprom hworks =>
        rw [if_pos rfl]
        refine wp_seq (wp_eepromWriteBytes hworks hs.configured hclip hself) ?_
        rintro ret t ⟨ht,hdone⟩
        refine ⟨ht,fun hzero => ?_⟩
        unfold writeReply at hzero ⊢
        by_cases hneg : ret<0
        · rw [if_pos hneg] at hzero
          dsimp only at hzero
          omega
        · rw [if_neg hneg]
          exact ⟨rfl,(hdone (by omega)).cells_eq⟩

/-- Every call leaves the save standing, and does what it is to do. -/
theorem right_of_standing (hworks : Works hw hooks view saveType size)
    (hs : Standing view size saveType s) (call : SaveCall) :
    Right hw hooks view size s call ∧
      ∀ t,callSave hw hooks s call=some t → Standing view size saveType t := by
  have hreads : ∀ {t : Cart σ},Standing view size saveType t →
      ReadsAs hw hooks view size (view.cells t.dev) t := by
    intro t ht offset length
    refine wp_post (wp_gbaRead hworks ht offset length) ?_
    rintro reply u ⟨hreply,hu⟩
    exact ⟨hreply,hu.cells_eq,hu.bank_eq⟩
  cases call with
  | read offset length =>
    refine ⟨hreads hs,fun t ht => ?_⟩
    obtain ⟨reply,u,hrun,-,hu⟩ := wp_total (wp_gbaRead hworks hs offset length)
    cases ht
    rw [hrun]
    refine ⟨?_,hu.bank_eq⟩
    rw [hu.ctx]
    exact hs.configured
  | write offset src =>
    have hwrite := wp_gbaWrite hworks hs offset src
    have hkept : ∀ {t : Cart σ},Home view s t → Standing view size saveType t := by
      intro t ht
      refine ⟨?_,ht.bank hs.bank⟩
      rw [ht.ctx]
      exact hs.configured
    refine ⟨wp_post hwrite ?_,fun t ht => ?_⟩
    · rintro reply t ⟨ht,hdone⟩
      refine ⟨ht.bank hs.bank,fun hzero => ?_⟩
      obtain ⟨hcount,hcells⟩ := hdone hzero
      refine ⟨hcount,hcells,?_⟩
      rw [← hcells]
      exact hreads (hkept ht)
    · obtain ⟨reply,u,hrun,hu,-⟩ := wp_total hwrite
      cases ht
      rw [hrun]
      exact hkept hu

/-- Reading a save that is no FLASH and no EEPROM. -/
theorem wp_gbaRead_home (hbanked : Banked hw hooks view s.ctx.saveSize)
    (hflash : s.ctx.saveType≠.flash) (heeprom : s.ctx.saveType≠.eeprom) (offset length : ℕ) :
    wp (gbaRead hw hooks .save offset length) (fun _ u => Home view s u) (fun _ => False) s := by
  unfold gbaRead readSave getCtx
  split
  · exact home_self
  · dsimp only
    rw [wp_bind,wp_inspect]
    split
    · exact home_self
    · split
      · exact home_self
      · rw [wp_bind]
        exact wp_linearSaveRead_home hbanked rfl hflash offset _ (home_self.kept _)

/-- Writing it. -/
theorem wp_gbaWrite_home (hbanked : Banked hw hooks view s.ctx.saveSize)
    (hflash : s.ctx.saveType≠.flash) (heeprom : s.ctx.saveType≠.eeprom) (offset : ℕ)
    (src : List UInt8) :
    wp (gbaWrite hw hooks .save offset src) (fun _ u => Home view s u) (fun _ => False) s := by
  unfold gbaWrite writeSave getCtx
  split
  · exact home_self
  · dsimp only
    rw [wp_bind,wp_inspect]
    split
    · exact home_self
    · split
      · exact home_self
      · rw [wp_bind]
        exact wp_linearSaveWrite_home hbanked rfl offset _ (home_self.kept _)

/-- SRAM that does not store has the first bank after every call too. -/
theorem banked_standing (hbanked : Banked hw hooks view size)
    (hs : Standing view size .sram s) (call : SaveCall) :
    ∀ t,callSave hw hooks s call=some t → Standing view size .sram t := by
  have hkept : ∀ {t : Cart σ},Home view s t → Standing view size .sram t := by
    intro t ht
    refine ⟨?_,ht.bank hs.bank⟩
    rw [ht.ctx]
    exact hs.configured
  have hsize : Banked hw hooks view s.ctx.saveSize := by
    rw [hs.configured.size_eq]
    exact hbanked
  have hflash : s.ctx.saveType≠.flash := by
    rw [hs.configured.type_eq]
    decide
  have heeprom : s.ctx.saveType≠.eeprom := by
    rw [hs.configured.type_eq]
    decide
  intro t ht
  cases call with
  | read offset length =>
    obtain ⟨reply,u,hrun,hu⟩ := wp_total (wp_gbaRead_home hsize hflash heeprom offset length)
    cases ht
    rw [hrun]
    exact hkept hu
  | write offset src =>
    obtain ⟨reply,u,hrun,hu⟩ := wp_total (wp_gbaWrite_home hsize hflash heeprom offset src)
    cases ht
    rw [hrun]
    exact hkept hu

/-- In every run of calls a save on a chip that works is an array of bytes, and the first
bank is selected after every call. The bank is selected even if SRAM does not store. -/
theorem saves_are_arrays (hw : CartHardware σ) (hooks : SaveHooks σ) (view : SaveView σ)
    (saveType : SaveType) (size : ℕ) (start : Cart σ)
    (hstart : Standing view size saveType start) (trace : List (Cart σ×SaveCall))
    (last : Cart σ) (run : Run (callSave hw hooks) start trace last) :
    (Works hw hooks view saveType size →
      EveryStep (Right hw hooks view size) trace ∧
      Always (fun s => view.bank s.dev=0) trace last) ∧
    (saveType=.sram → Banked hw hooks view size →
      Always (fun s => view.bank s.dev=0) trace last) := by
  refine ⟨fun hworks => ?_,fun htype hbanked => ?_⟩
  · have hall := run.always hstart fun s call t hs ht =>
      (right_of_standing hworks hs call).2 t ht
    exact ⟨fun entry hentry => (right_of_standing hworks (hall.1 entry hentry) entry.2).1,
      fun entry hentry => (hall.1 entry hentry).bank,hall.2.bank⟩
  · subst htype
    have hall := run.always hstart fun s call t hs ht => banked_standing hbanked hs call t ht
    exact ⟨fun entry hentry => (hall.1 entry hentry).bank,hall.2.bank⟩

end Calls

section Chips

/-- Kinds of SRAM. -/
inductive SramKind where
  /-- Thirty-two kilobytes, seen twice in the window or once. -/
  | small (mirrored : Bool)
  /-- Sixty-four kilobytes. -/
  | whole
  /-- A hundred and twenty-eight kilobytes in two banks. -/
  | banked
deriving DecidableEq

/-- The contents and the bank register of SRAM. -/
structure SramChip where
  /-- The contents. -/
  cells : ℕ → UInt8
  /-- The register. -/
  bank : ℕ

/-- The byte of the memory at an address of the window, if there is one. -/
def SramKind.index (kind : SramKind) (bank a : ℕ) : Option ℕ :=
  match kind with
  | .small mirrored =>
    if a<0x8000 then some a else if mirrored then some (a%0x8000) else none
  | .whole => some (a%0x10000)
  | .banked => some (bank%2*0x10000+a%0x10000)

/-- Where the register is, in the space of the ROM. -/
def bankRegister : ℕ := 0x09000000

/-- A cartridge with SRAM and a ROM. -/
def sramHardware (kind : SramKind) (rom : ℕ → UInt16) : CartHardware SramChip where
  saveRead8 a d := (match kind.index d.bank a with
    | some i => d.cells i
    | none => 0xff,d)
  saveWrite8 a v d := match kind.index d.bank a with
    | some i => {d with cells := splice d.cells i [v]}
    | none => d
  romRead16 a _ := rom a
  romWrite16 a v d := if a=bankRegister then {d with bank := v.toNat} else d
  norProbe d := (false,d)
  norWrite _ _ d := ((-1,0),d)
  norFlush d := (0,d)
  norSetWriteSize _ d := (0,d)

/-- The hooks that the driver has for it. -/
def sramHooks (kind : SramKind) (rom : ℕ → UInt16) : SaveHooks SramChip where
  switchSramBank := some (defaultSwitchSramBank (sramHardware kind rom))
  switchFlashBank := none
  eraseFlash := none
  writeFlashByte := none
  readEepromUnit := none
  writeEepromUnit := none

/-- How it is seen. -/
def sramView : SaveView SramChip := ⟨SramChip.cells,SramChip.bank⟩

theorem defaultSwitchSramBank_sram (kind : SramKind) (rom : ℕ → UInt16) (b : UInt8)
    (d : SramChip) :
    defaultSwitchSramBank (sramHardware kind rom) b d={d with bank := b.toNat} := by
  have hother : (0x09fffffe : ℕ)≠bankRegister := by decide
  unfold defaultSwitchSramBank sramHardware
  simp only [hother,if_false]
  change (if bankRegister=bankRegister then _ else _)=_
  rw [if_pos rfl,UInt8.toNat_toUInt16]

/-- SRAM in two banks works. -/
theorem banked_works (rom : ℕ → UInt16) :
    SramWorks (sramHardware .banked rom) (sramHooks .banked rom) sramView
      clCartGbaMaxLinearSaveSize := by
  have hindex : ∀ {bank a : ℕ},a< clCartGbaSramBankSize →
      bank*clCartGbaSramBankSize+a< clCartGbaMaxLinearSaveSize →
      SramKind.banked.index bank a=some (bank*clCartGbaSramBankSize+a) := by
    intro bank a ha hin
    unfold clCartGbaSramBankSize at ha hin ⊢
    unfold clCartGbaMaxLinearSaveSize at hin
    have hbank : bank%2=bank := Nat.mod_eq_of_lt (by omega)
    have haddress : a%0x10000=a := Nat.mod_eq_of_lt ha
    unfold SramKind.index
    dsimp only
    rw [hbank,haddress]
  have hread : ∀ a d,(sramHardware .banked rom).saveRead8 a d=
      (match SramKind.banked.index d.bank a with
        | some i => d.cells i
        | none => 0xff,d) := fun _ _ => rfl
  have hwrite : ∀ a v d,(sramHardware .banked rom).saveWrite8 a v d=
      match SramKind.banked.index d.bank a with
        | some i => {d with cells := splice d.cells i [v]}
        | none => d := fun _ _ _ => rfl
  refine ⟨⟨fun _ _ => rfl,fun a v d => ?_,fun _ => ⟨_,rfl,fun b d => ?_⟩⟩,
    fun a d ha hin => ?_,fun _ _ => rfl,fun a v d ha hin => ?_,fun switch hswitch b d => ?_⟩
  · rfl
  · rw [defaultSwitchSramBank_sram]
    rfl
  · have hat : SramKind.banked.index d.bank a=some _ := hindex ha hin
    rw [hread,hat]
    rfl
  · have hat : SramKind.banked.index d.bank a=some _ := hindex ha hin
    rw [hwrite,hat]
    rfl
  · cases hswitch
    rw [defaultSwitchSramBank_sram]
    rfl

/-- A cartridge with two banks of SRAM full of zeros. -/
def bankedCart : Cart SramChip where
  dev := ⟨fun _ => 0,0⟩
  ctx := applySaveConfig {initialCtx with romBase := 0x08000000} .sram
    clCartGbaMaxLinearSaveSize clCartGbaDefaultSaveBase
  waitcnt := 0

theorem bankedCart_standing :
    Standing sramView clCartGbaMaxLinearSaveSize .sram bankedCart :=
  ⟨configured_applySaveConfig _ rfl rfl (by decide),rfl⟩

/-- The run of one write over the end of the first bank. -/
theorem saves_are_arrays_banked :
    EveryStep (Right (sramHardware .banked fun _ => 0) (sramHooks .banked fun _ => 0) sramView
        clCartGbaMaxLinearSaveSize) [(bankedCart,.write 0xffff [1,2])] ∧
    Always (fun s => sramView.bank s.dev=0) [(bankedCart,SaveCall.write 0xffff [1,2])]
      (gbaWrite (sramHardware .banked fun _ => 0) (sramHooks .banked fun _ => 0) .save 0xffff
        [1,2] bankedCart).2 :=
  (saves_are_arrays (sramHardware .banked fun _ => 0) (sramHooks .banked fun _ => 0) sramView
    .sram clCartGbaMaxLinearSaveSize bankedCart bankedCart_standing _ _
    (Run.nil.snoc rfl)).1 (.sram (banked_works fun _ => 0) (by decide) (by decide))

/-- Behind a successful write, a read at an offset of more than thirty-two bits is an error. -/
theorem read_fails_beyond :
    (gbaWrite (sramHardware .banked fun _ => 0) (sramHooks .banked fun _ => 0) .save 0 [1]
        bankedCart).1=some (0,1) ∧
      (gbaRead (sramHardware .banked fun _ => 0) (sramHooks .banked fun _ => 0) .save
        0x100000000 1 (gbaWrite (sramHardware .banked fun _ => 0)
          (sramHooks .banked fun _ => 0) .save 0 [1] bankedCart).2).1=some (-1,[]) := by
  decide +kernel

end Chips

end ChisLink.CartSaveArrays
