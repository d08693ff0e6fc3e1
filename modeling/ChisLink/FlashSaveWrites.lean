import ChisLink.CartSaveDriver
import ChisLink.ErasingWrites
import ChisLink.LabelledRuns
import Mathlib.Data.Nat.Bitwise

/-!
# Writes to a FLASH save

FLASH is erased in sectors of four kilobytes and programmed byte by byte, which only
clears bits. The driver marks the sectors that it has erased. On a chip that works, a
write comes to what it does to a memory with marks: it succeeds exactly if every byte can
be programmed over what is there. The first bank is selected and the wait-state register
restored however it ends.
-/

namespace ChisLink.FlashSaveWrites

open AlignedTransfers CartSaveDriver DriverPrograms ErasableMemory ErasingWrites LabelledRuns

variable {σ : Type}

section Memory

/-- The sectors of FLASH. -/
def sectors : Blocks where
  start i := i/clCartGbaFlashSectorSize*clCartGbaFlashSectorSize
  start_le i := Nat.div_mul_le_self i clCartGbaFlashSectorSize
  start_eq i j hle hij := by
    unfold clCartGbaFlashSectorSize at hle ⊢
    omega

/-- A byte of FLASH, programming clears bits of it. -/
def flashByte : CellKind UInt8 where
  combine old v := old &&& v
  blank := 0xff
  combine_blank v := by
    have hones : (0xff : UInt8)= -1 := by decide
    rw [hones,UInt8.neg_one_and]

/-- A blank byte is not programmed with a blank one. -/
def idleByte (old v : UInt8) : Bool := v=0xff && old=0xff

theorem sectors_start_eq {i j : ℕ} :
    sectors.start i=sectors.start j ↔
      i/clCartGbaFlashSectorSize=j/clCartGbaFlashSectorSize := by
  change i/clCartGbaFlashSectorSize*clCartGbaFlashSectorSize=
    j/clCartGbaFlashSectorSize*clCartGbaFlashSectorSize ↔ _
  exact Nat.mul_left_inj (by decide)

/-- How FLASH is seen. -/
structure FlashView (σ : Type) where
  /-- The contents. -/
  cells : σ → ℕ → UInt8
  /-- The bank in the window. -/
  bank : σ → ℕ
  /-- The operations that the chip has done. -/
  ops : σ → List (MemoryOp UInt8)
  /-- No command is under way. -/
  ready : σ → Prop

/-- The memory with the marks of the driver. -/
def seen (view : FlashView σ) (s : Cart σ) : Marked UInt8 where
  marks i := s.ctx.flashErasedSectorMask.toNat.testBit (i/clCartGbaFlashSectorSize)
  cells := view.cells s.dev
  ops := view.ops s.dev

theorem whole_seen (view : FlashView σ) (s : Cart σ) : Whole sectors (seen view s) := by
  intro i j h
  change Nat.testBit _ _=Nat.testBit _ _
  rw [sectors_start_eq.mp h]

theorem toNat_sectorBit {sector : ℕ} (h : sector<32) : (sectorBit sector).toNat=2^sector := by
  revert sector
  decide

/-- What the driver looks at to know whether a sector is marked. -/
theorem and_sectorBit {mask : UInt32} {sector : ℕ} (h : sector<32) :
    mask &&& sectorBit sector=0 ↔ mask.toNat.testBit sector=false := by
  rw [← UInt32.toNat_inj,UInt32.toNat_and,toNat_sectorBit h,Nat.and_two_pow]
  have hpos := Nat.two_pow_pos sector
  cases mask.toNat.testBit sector with
  | true => simp
  | false => simp

theorem testBit_or_sectorBit {mask : UInt32} {sector : ℕ} (h : sector<32) (k : ℕ) :
    (mask ||| sectorBit sector).toNat.testBit k=(mask.toNat.testBit k || sector=k) := by
  rw [UInt32.toNat_or,Nat.testBit_or,toNat_sectorBit h,Nat.testBit_two_pow]

end Memory

section Contracts

variable (hw : CartHardware σ) (hooks : SaveHooks σ) (view : FlashView σ) (size : ℕ)

/-- The bank in the window changes only when one is selected. -/
structure FlashBanks : Prop where
  /-- Not by a read. -/
  read_bank : ∀ a d,view.ready d →
    view.bank (hw.saveRead8 a d).2=view.bank d ∧ view.ready (hw.saveRead8 a d).2
  /-- Not by erasing. -/
  erase_bank : ∀ erase,hooks.eraseFlash=some erase → ∀ a d,view.ready d →
    view.bank (erase a d).2=view.bank d ∧ view.ready (erase a d).2
  /-- Not by programming. -/
  write_bank : ∀ write,hooks.writeFlashByte=some write → ∀ a v d,view.ready d →
    view.bank (write a v d).2=view.bank d ∧ view.ready (write a v d).2
  /-- The hook selects one, if the save is larger than the window. -/
  switch : clCartGbaSramBankSize<size → ∃ switch,hooks.switchFlashBank=some switch ∧
    ∀ b d,view.ready d → view.bank (switch b d)=b.toNat ∧ view.ready (switch b d)

/-- FLASH that works. Programming a byte fails exactly if it would have to set a bit. -/
structure FlashWorks : Prop extends FlashBanks hw hooks view size where
  /-- A read returns what is at the address in the bank. -/
  read : ∀ a d,view.ready d → a<clCartGbaSramBankSize →
    view.bank d*clCartGbaSramBankSize+a<size →
    (hw.saveRead8 a d).1=view.cells d (view.bank d*clCartGbaSramBankSize+a)
  /-- It changes nothing. -/
  read_kept : ∀ a d,view.ready d → view.cells (hw.saveRead8 a d).2=view.cells d ∧
    view.ops (hw.saveRead8 a d).2=view.ops d
  /-- Neither does selecting a bank. -/
  switch_kept : ∀ switch,hooks.switchFlashBank=some switch → ∀ b d,view.ready d →
    view.cells (switch b d)=view.cells d ∧ view.ops (switch b d)=view.ops d
  /-- A sector is erased. -/
  erase : ∃ erase,hooks.eraseFlash=some erase ∧ ∀ a d,view.ready d →
    a<clCartGbaSramBankSize → a%clCartGbaFlashSectorSize=0 →
    view.bank d*clCartGbaSramBankSize+a<size →
    0≤(erase a d).1 ∧
    view.cells (erase a d).2=
      (MemoryOp.erase (view.bank d*clCartGbaSramBankSize+a)).apply sectors flashByte
        (view.cells d) ∧
    view.ops (erase a d).2=view.ops d++[.erase (view.bank d*clCartGbaSramBankSize+a)]
  /-- A byte is programmed. -/
  write : ∃ write,hooks.writeFlashByte=some write ∧ ∀ a v d,view.ready d →
    a<clCartGbaSramBankSize → view.bank d*clCartGbaSramBankSize+a<size →
    (0≤(write a v d).1 ↔
      view.cells d (view.bank d*clCartGbaSramBankSize+a) &&& v=v) ∧
    view.cells (write a v d).2=Function.update (view.cells d)
      (view.bank d*clCartGbaSramBankSize+a)
      (view.cells d (view.bank d*clCartGbaSramBankSize+a) &&& v) ∧
    view.ops (write a v d).2=view.ops d++
      if idleByte (view.cells d (view.bank d*clCartGbaSramBankSize+a)) v=true then []
      else [.program (view.bank d*clCartGbaSramBankSize+a) v]

end Contracts

variable {hw : CartHardware σ} {hooks : SaveHooks σ} {view : FlashView σ} {size : ℕ}

section Exits

variable {s t : Cart σ}

/-- What a write to FLASH leaves of the variables. -/
def SameButMask (s t : Cart σ) : Prop :=
  t.ctx={s.ctx with flashErasedSectorMask := t.ctx.flashErasedSectorMask}

/-- In the middle of a write: if the first bank was selected, it still is unless the save
has more. -/
structure Midway (view : FlashView σ) (size : ℕ) (s t : Cart σ) : Prop where
  /-- The variables. -/
  ctx : SameButMask s t
  /-- The bank. -/
  bank : view.bank t.dev=0 ∨ clCartGbaSramBankSize<size
  /-- The chip. -/
  ready : view.ready t.dev

/-- At the end of a write: the first bank is selected and the register is as before. -/
structure Back (view : FlashView σ) (s t : Cart σ) : Prop where
  /-- The variables. -/
  ctx : SameButMask s t
  /-- The register. -/
  waitcnt : t.waitcnt=s.waitcnt
  /-- The bank. -/
  bank : view.bank t.dev=0
  /-- The chip. -/
  ready : view.ready t.dev

theorem SameButMask.saveSize (h : SameButMask s t) : t.ctx.saveSize=s.ctx.saveSize := by
  rw [h]

theorem back_self (h : view.bank s.dev=0) (hready : view.ready s.dev) : Back view s s :=
  ⟨rfl,rfl,h,hready⟩

theorem Back.trans {u : Cart σ} (h : Back view s t) (h' : Back view t u) : Back view s u := by
  refine ⟨?_,h'.waitcnt.trans h.waitcnt,h'.bank,h'.ready⟩
  have hfirst := h.ctx
  have hsecond := h'.ctx
  unfold SameButMask at hfirst hsecond ⊢
  rw [hfirst] at hsecond
  rw [hsecond]

/-- The end of a write. -/
theorem wp_leaveFlash_back (hbanks : FlashBanks hw hooks view size)
    (hsize : s.ctx.saveSize=size) (ret : ℤ) (ht : Midway view size s t) :
    wp (leaveFlash hooks s.waitcnt ret) (fun reply u => reply=ret ∧ Back view s u)
      (fun _ => False) t := by
  unfold leaveFlash switchFlashBank getCtx
  rw [wp_bind,wp_bind,wp_inspect,ht.ctx.saveSize,hsize]
  split
  next hlarge =>
    obtain ⟨switch,hswitch,hbank⟩ := hbanks.switch hlarge
    rw [hswitch]
    obtain ⟨hzero,hready⟩ := hbank 0 t.dev ht.ready
    exact ⟨rfl,ht.ctx,rfl,hzero,hready⟩
  next hsmall => exact ⟨rfl,ht.ctx,rfl,ht.bank.resolve_right hsmall,ht.ready⟩

theorem wp_switchFlashBank_midway (hbanks : FlashBanks hw hooks view size)
    (hsize : s.ctx.saveSize=size) (bank : UInt8) (ht : Midway view size s t) :
    wp (switchFlashBank hooks bank) (fun _ u => Midway view size s u) (fun _ => False) t := by
  unfold switchFlashBank getCtx
  rw [wp_bind,wp_inspect,ht.ctx.saveSize,hsize]
  split
  next hlarge =>
    obtain ⟨switch,hswitch,hbank⟩ := hbanks.switch hlarge
    rw [hswitch]
    exact ⟨ht.ctx,Or.inr hlarge,(hbank bank t.dev ht.ready).2⟩
  · exact ht

/-- A call that keeps the bank. -/
theorem keeps_onDevice {α : Type} {f : σ → α×σ}
    (h : ∀ d,view.ready d → view.bank (f d).2=view.bank d ∧ view.ready (f d).2) :
    Keeps (Midway view size s) (onDevice f) := by
  refine keeps_access fun t ht => ⟨ht.ctx,?_,(h t.dev ht.ready).2⟩
  dsimp only
  rw [(h t.dev ht.ready).1]
  exact ht.bank

theorem keeps_eraseSectorOnce {erase : ℕ → σ → ℤ×σ}
    (herase : ∀ a d,view.ready d →
      view.bank (erase a d).2=view.bank d ∧ view.ready (erase a d).2) (sector sectorBase : ℕ) :
    Keeps (Midway view size s) (eraseSectorOnce erase sector sectorBase) := by
  unfold eraseSectorOnce
  refine Keeps.bind (keeps_inspect _) fun ctx => keeps_ite ?_ (keeps_pure 0)
  refine (keeps_onDevice (herase sectorBase)).bind fun ret => keeps_ite (keeps_pure ret) ?_
  refine Keeps.bind (keeps_update fun t ht => ⟨?_,ht.bank,ht.ready⟩) fun _ =>
    keeps_pure 0
  have hctx := ht.ctx
  unfold SameButMask at hctx ⊢
  dsimp only
  rw [hctx]

theorem keeps_programWindow {write : ℕ → UInt8 → σ → ℤ×σ}
    (hwrite : ∀ a v d,view.ready d →
      view.bank (write a v d).2=view.bank d ∧ view.ready (write a v d).2) (a : ℕ) (src : List UInt8) :
    Keeps (Midway view size s) (programWindow write a src) := by
  induction src generalizing a with
  | nil => exact keeps_pure 0
  | cons v src ih =>
    unfold programWindow
    exact (keeps_onDevice (hwrite a v)).bind fun ret => keeps_ite (keeps_pure ret) (ih (a+1))

theorem keeps_verifyWindow (hread : ∀ a d,view.ready d →
      view.bank (hw.saveRead8 a d).2=view.bank d ∧ view.ready (hw.saveRead8 a d).2) (a : ℕ)
    (src : List UInt8) : Keeps (Midway view size s) (verifyWindow hw a src) := by
  induction src generalizing a with
  | nil => exact keeps_pure true
  | cons v src ih =>
    unfold verifyWindow
    exact (keeps_onDevice (hread a)).bind fun now => keeps_ite (keeps_pure false) (ih (a+1))

/-- A piece of a write: if it fails, the write has ended. -/
theorem wp_flashPiece_back (hbanks : FlashBanks hw hooks view size)
    (hsize : s.ctx.saveSize=size) {erase : ℕ → σ → ℤ×σ} {write : ℕ → UInt8 → σ → ℤ×σ}
    (herase : hooks.eraseFlash=some erase) (hwrite : hooks.writeFlashByte=some write)
    (absolute : ℕ) (piece : List UInt8) (ht : Midway view size s t) :
    wp (flashPiece hw hooks erase write s.waitcnt absolute piece)
      (fun ret u => (ret<0 ∧ Back view s u) ∨ (0≤ ret ∧ Midway view size s u))
      (fun _ => False) t := by
  have hleave : ∀ {ret : ℤ} {u : Cart σ},ret<0 → Midway view size s u →
      wp (leaveFlash hooks s.waitcnt ret)
        (fun ret u => (ret<0 ∧ Back view s u) ∨ (0≤ ret ∧ Midway view size s u))
        (fun _ => False) u := by
    intro ret u hneg hu
    refine wp_post (wp_leaveFlash_back hbanks hsize ret hu) ?_
    rintro reply v ⟨rfl,hv⟩
    exact Or.inl ⟨hneg,hv⟩
  unfold flashPiece
  dsimp only
  split
  · exact hleave (by decide) ht
  · refine wp_seq (wp_switchFlashBank_midway hbanks hsize _ ht) ?_
    intro _ t ht
    refine wp_seq (keeps_eraseSectorOnce (hbanks.erase_bank erase herase) _ _ t ht) ?_
    intro erased t ht
    split
    next hneg => exact hleave hneg ht
    · refine wp_seq (keeps_programWindow (hbanks.write_bank write hwrite) _ _ t ht) ?_
      intro programmed t ht
      split
      next hneg => exact hleave hneg ht
      · refine wp_seq (keeps_verifyWindow hbanks.read_bank _ _ t ht) ?_
        intro right t ht
        split
        · exact Or.inr ⟨Int.le_refl 0,ht⟩
        · exact hleave (by decide) ht

/-- However a write to FLASH ends, whatever the hooks report, the first bank is selected and
the register is as before. -/
theorem wp_linearFlashWrite_back (hbanks : FlashBanks hw hooks view size)
    (hsize : s.ctx.saveSize=size) (hbank : view.bank s.dev=0) (hready : view.ready s.dev)
    (offset : ℕ) (src : List UInt8) :
    wp (linearFlashWrite hw hooks offset src) (fun _ t => Back view s t) (fun _ => False) s := by
  unfold linearFlashWrite
  split
  next erase write herase hwrite =>
    unfold getCtx
    rw [wp_bind,wp_inspect]
    split
    · exact back_self hbank hready
    · unfold flashWaitcntEnter
      rw [wp_bind,wp_access]
      refine wp_seq (wp_writePieces (Q := fun _ u => Back view s u)
        (I := fun _ u => Midway view size s u) (by decide) ?_ ⟨rfl,Or.inl hbank,hready⟩) ?_
      · intro done piece rest u _ _ _ hu
        exact wp_flashPiece_back hbanks hsize herase hwrite _ piece hu
      · rintro ret u (⟨hneg,hu⟩ | ⟨hzero,hu⟩)
        · rw [if_pos hneg]
          exact hu
        · rw [if_neg (by omega)]
          exact wp_post (wp_leaveFlash_back hbanks hsize 0 hu) (fun _ _ h => h.2)
  · exact back_self hbank hready

end Exits

section Contents

variable {s t : Cart σ} {m : Marked UInt8} {bank : ℕ}

/-- In the middle of a write: the memory with its marks, and the bank. -/
structure Under (view : FlashView σ) (s : Cart σ) (bank : ℕ) (m : Marked UInt8)
    (t : Cart σ) : Prop where
  /-- The variables. -/
  ctx : SameButMask s t
  /-- The bank. -/
  bank_eq : view.bank t.dev=bank
  /-- The chip. -/
  ready : view.ready t.dev
  /-- The memory. -/
  seen_eq : seen view t=m

theorem Under.cells (ht : Under view s bank m t) : view.cells t.dev=m.cells :=
  congrArg Marked.cells ht.seen_eq

theorem Under.ops (ht : Under view s bank m t) : view.ops t.dev=m.ops :=
  congrArg Marked.ops ht.seen_eq

theorem Under.marks (ht : Under view s bank m t) (i : ℕ) :
    t.ctx.flashErasedSectorMask.toNat.testBit (i/clCartGbaFlashSectorSize)=m.marks i :=
  congrFun (congrArg Marked.marks ht.seen_eq) i

/-- A state of the chip that shows the memory. -/
theorem under_device {d : σ} (ht : Under view s bank m t)
    (hbank : view.bank d=view.bank t.dev ∧ view.ready d) {m' : Marked UInt8} (hmarks : m'.marks=m.marks) (hcells : view.cells d=m'.cells)
    (hops : view.ops d=m'.ops) : Under view s bank m' {t with dev := d} := by
  refine ⟨ht.ctx,hbank.1.trans ht.bank_eq,hbank.2,?_⟩
  have hseen : seen view {t with dev := d}=⟨m.marks,view.cells d,view.ops d⟩ := by
    rw [← ht.seen_eq]
    rfl
  rw [hseen,hcells,hops,← hmarks]

theorem wp_switchFlashBank (hworks : FlashWorks hw hooks view size)
    (hsize : s.ctx.saveSize=size) (n : UInt8) (ht : Under view s bank m t) :
    wp (switchFlashBank hooks n)
      (fun _ u => Under view s (if clCartGbaSramBankSize<size then n.toNat else bank) m u)
      (fun _ => False) t := by
  unfold switchFlashBank getCtx
  rw [wp_bind,wp_inspect,ht.ctx.saveSize,hsize]
  split
  next hlarge =>
    obtain ⟨switch,hswitch,hbank⟩ := hworks.switch hlarge
    obtain ⟨hcells,hops⟩ := hworks.switch_kept switch hswitch n t.dev ht.ready
    rw [hswitch]
    obtain ⟨hnow,hready⟩ := hbank n t.dev ht.ready
    refine ⟨ht.ctx,hnow,hready,?_⟩
    rw [← ht.seen_eq]
    unfold seen
    dsimp only
    rw [hcells,hops]
  · exact ht

theorem wp_saveRead8 (hworks : FlashWorks hw hooks view size) {a : ℕ}
    (ha : a<clCartGbaSramBankSize) (hin : bank*clCartGbaSramBankSize+a<size)
    (ht : Under view s bank m t) :
    wp (saveRead8 hw a)
      (fun value u => value=m.cells (bank*clCartGbaSramBankSize+a) ∧ Under view s bank m u)
      (fun _ => False) t := by
  have hbank := ht.bank_eq
  have hvalue := hworks.read a t.dev ht.ready ha (by rw [hbank]; exact hin)
  obtain ⟨hcells,hops⟩ := hworks.read_kept a t.dev ht.ready
  rw [hbank,ht.cells] at hvalue
  exact ⟨hvalue,under_device ht (hworks.read_bank a t.dev ht.ready) rfl
    (hcells.trans ht.cells) (hops.trans ht.ops)⟩

/-- A sector is reached. -/
theorem wp_eraseSectorOnce (hworks : FlashWorks hw hooks view size) {erase : ℕ → σ → ℤ×σ}
    (herase : hooks.eraseFlash=some erase) {sector sectorBase : ℕ} (hsector : sector<32)
    (hbase : sectorBase<clCartGbaSramBankSize) (haligned : sectorBase%clCartGbaFlashSectorSize=0)
    (hstart : bank*clCartGbaSramBankSize+sectorBase=sector*clCartGbaFlashSectorSize)
    (hin : sector*clCartGbaFlashSectorSize<size) {i : ℕ} (hi : i/clCartGbaFlashSectorSize=sector)
    (ht : Under view s bank m t) :
    wp (eraseSectorOnce erase sector sectorBase)
      (fun ret u => ret=0 ∧ Under view s bank (reach sectors flashByte m i) u)
      (fun _ => False) t := by
  have hmark := ht.marks i
  rw [hi] at hmark
  unfold eraseSectorOnce getCtx reach
  rw [wp_bind,wp_inspect]
  by_cases hset : m.marks i=true
  · rw [hset] at hmark
    rw [if_neg (fun h => Bool.false_ne_true (((and_sectorBit hsector).mp h).symm.trans hmark)),
      if_pos hset]
    exact ⟨rfl,ht⟩
  · have hclear := Bool.eq_false_iff.mpr hset
    rw [hclear] at hmark
    rw [if_pos ((and_sectorBit hsector).mpr hmark),if_neg hset,wp_bind]
    obtain ⟨erase',herase',hdo⟩ := hworks.erase
    obtain rfl : erase=erase' := Option.some.inj (herase.symm.trans herase')
    have hbank := ht.bank_eq
    obtain ⟨hret,hcells,hops⟩ := hdo sectorBase t.dev ht.ready hbase haligned
      (by rw [hbank,hstart]; exact hin)
    obtain ⟨hsame,hready⟩ := hworks.erase_bank erase herase sectorBase t.dev ht.ready
    rw [hbank,hstart] at hcells hops
    have hblock : sectors.start i=sector*clCartGbaFlashSectorSize := by
      rw [← hi]
      rfl
    unfold onDevice
    rw [wp_access,if_neg (by omega),wp_bind]
    refine ⟨rfl,?_,hsame.trans hbank,hready,?_⟩
    · have hctx := ht.ctx
      unfold SameButMask at hctx ⊢
      dsimp only
      rw [hctx]
    · unfold seen
      dsimp only
      rw [hcells,hops,ht.cells,ht.ops,hblock]
      congr 1
      funext j
      rw [testBit_or_sectorBit hsector,ht.marks j,← hblock]
      by_cases hj : sectors.start j=sectors.start i
      · have heq := sectors_start_eq.mp hj
        rw [if_pos hj,heq,hi]
        simp only [decide_true,Bool.or_true]
      · have hne : sector≠j/clCartGbaFlashSectorSize := by
          rw [← hi]
          exact fun h => hj (sectors_start_eq.mpr h.symm)
        rw [if_neg hj,decide_eq_false hne,Bool.or_false]

/-- The effect of writes to the memory of FLASH. -/
abbrev putFlash (m : Marked UInt8) (offset : ℕ) (src : List UInt8) : Marked UInt8 :=
  putAll sectors flashByte idleByte m offset src

/-- A write to FLASH has ended at a byte that is not taken. -/
abbrev FlashEndedAt (m : Marked UInt8) (offset : ℕ) (src : List UInt8) (now : Marked UInt8) :
    Prop :=
  EndedAt sectors flashByte idleByte m offset src now

/-- Bytes of marked sectors are programmed, up to the first that is not taken. -/
theorem wp_programWindow (hworks : FlashWorks hw hooks view size) {write : ℕ → UInt8 → σ → ℤ×σ}
    (hwrite : hooks.writeFlashByte=some write) {a : ℕ} {src : List UInt8}
    (ha : a+src.length≤ clCartGbaSramBankSize)
    (hin : bank*clCartGbaSramBankSize+a+src.length≤ size) (hwhole : Whole sectors m)
    (hmarked : ∀ k<src.length,m.marks (bank*clCartGbaSramBankSize+a+k)=true)
    (ht : Under view s bank m t) :
    wp (programWindow write a src)
      (fun ret u => (0≤ ret ∧ Accepts flashByte m (bank*clCartGbaSramBankSize+a) src ∧
          Under view s bank (putFlash m (bank*clCartGbaSramBankSize+a) src) u) ∨
        (ret<0 ∧ ∃ now,FlashEndedAt m (bank*clCartGbaSramBankSize+a) src now ∧
          Under view s bank now u))
      (fun _ => False) t := by
  induction src generalizing a m t with
  | nil => exact Or.inl ⟨Int.le_refl 0,trivial,ht⟩
  | cons v src ih =>
    rw [List.length_cons] at ha hin
    obtain ⟨i,hi⟩ : ∃ i,i=bank*clCartGbaSramBankSize+a := ⟨_,rfl⟩
    rw [← hi] at hin hmarked ⊢
    obtain ⟨write',hwrite',hdo⟩ := hworks.write
    obtain rfl : write=write' := Option.some.inj (hwrite.symm.trans hwrite')
    have hbank := ht.bank_eq
    obtain ⟨hret,hcells,hops⟩ := hdo a v t.dev ht.ready (by omega)
      (by rw [hbank,← hi]; omega)
    have hsame := hworks.write_bank write hwrite a v t.dev ht.ready
    rw [hbank,← hi,ht.cells] at hret hcells hops
    have hmark : m.marks i=true := hmarked 0 (Nat.zero_lt_succ _)
    have hready : ready flashByte m i=m.cells i := if_pos hmark
    have hreach : reach sectors flashByte m i=m := if_pos hmark
    -- what the byte comes to, whether it was taken or not
    have hnext : Under view s bank (put sectors flashByte idleByte m i v)
        {t with dev := (write a v t.dev).2} := by
      unfold put
      rw [hreach]
      refine under_device ht hsame rfl hcells ?_
      rw [hops,ht.ops]
      rfl
    unfold programWindow onDevice
    rw [wp_bind,wp_access]
    split
    next hneg =>
      refine Or.inr ⟨hneg,_,endedAt_head fun h => ?_,hnext⟩
      rw [hready] at h
      have hnonneg := hret.mpr h
      omega
    next hzero =>
      have htaken : flashByte.combine (m.cells i) v=v := hret.mp (by omega)
      have haddress : bank*clCartGbaSramBankSize+(a+1)=i+1 := by omega
      have hrest := ih (a := a+1) (by omega) (by omega) (whole_put hwhole) (fun k hk => by
        rw [put_marks hwhole,haddress]
        have harith : i+1+k=i+(k+1) := by omega
        rw [harith,hmarked (k+1) (Nat.succ_lt_succ hk)]
        rfl) hnext
      rw [haddress] at hrest
      refine wp_post hrest ?_
      rintro ret u (⟨hret,haccepts,hu⟩ | ⟨hret,now,hended,hu⟩)
      · rw [accepts_congr fun k _ => ready_put hwhole (by omega)] at haccepts
        rw [← hready] at htaken
        exact Or.inl ⟨hret,⟨htaken,haccepts⟩,hu⟩
      · have hbehind := @EndedAt.behind UInt8 sectors flashByte idleByte m i src now [v] hwhole [] hended
        rw [List.append_nil] at hbehind
        exact Or.inr ⟨hret,now,hbehind,hu⟩

/-- Bytes that are there are found. -/
theorem wp_verifyWindow (hworks : FlashWorks hw hooks view size) {a : ℕ} {src : List UInt8}
    (ha : a+src.length≤ clCartGbaSramBankSize)
    (hin : bank*clCartGbaSramBankSize+a+src.length≤ size)
    (hcells : ∀ (k : ℕ) (hk : k<src.length),
      m.cells (bank*clCartGbaSramBankSize+a+k)=src.get ⟨k,hk⟩)
    (ht : Under view s bank m t) :
    wp (verifyWindow hw a src) (fun right u => right=true ∧ Under view s bank m u)
      (fun _ => False) t := by
  induction src generalizing a t with
  | nil => exact ⟨rfl,ht⟩
  | cons v src ih =>
    rw [List.length_cons] at ha hin
    unfold verifyWindow
    refine wp_seq (wp_saveRead8 hworks (by omega) (by omega) ht) ?_
    rintro now u ⟨rfl,hu⟩
    have hfirst := hcells 0 (Nat.zero_lt_succ _)
    rw [Nat.add_zero] at hfirst
    rw [hfirst,if_neg (fun h => h rfl)]
    refine ih (by omega) (by omega) (fun k hk => ?_) hu
    have harith : bank*clCartGbaSramBankSize+(a+1)+k=bank*clCartGbaSramBankSize+a+(k+1) := by
      omega
    rw [harith]
    exact hcells (k+1) (Nat.succ_lt_succ hk)

/-- The places of a piece that lies in one sector. -/
theorem piece_places {size bank address n : ℕ} (hmax : size≤ clCartGbaMaxLinearSaveSize)
    (hin : address+n≤ size) (hpos : 0<n)
    (hfits : address%clCartGbaFlashSectorSize+n≤ clCartGbaFlashSectorSize)
    (hbank : bank=0 ∨ clCartGbaSramBankSize<size) :
    address/clCartGbaFlashSectorSize<32 ∧
    (if clCartGbaSramBankSize<size then
        (UInt8.ofNat (address/clCartGbaFlashSectorSize/clCartGbaFlashSectorsPerBank)).toNat
      else bank)=address/clCartGbaSramBankSize ∧
    address/clCartGbaSramBankSize*clCartGbaSramBankSize+
      address/clCartGbaFlashSectorSize%clCartGbaFlashSectorsPerBank*clCartGbaFlashSectorSize=
        address/clCartGbaFlashSectorSize*clCartGbaFlashSectorSize ∧
    address/clCartGbaFlashSectorSize%clCartGbaFlashSectorsPerBank*clCartGbaFlashSectorSize<
      clCartGbaSramBankSize ∧
    address%clCartGbaSramBankSize+n≤ clCartGbaSramBankSize ∧
    address/clCartGbaSramBankSize*clCartGbaSramBankSize+address%clCartGbaSramBankSize=address := by
  unfold clCartGbaFlashSectorSize clCartGbaFlashSectorsPerBank clCartGbaSramBankSize
    clCartGbaMaxLinearSaveSize at *
  refine ⟨by omega,?_,by omega,by omega,by omega,by omega⟩
  rw [UInt8.toNat_ofNat']
  split <;> omega

/-- The end of a write returns what it is told and changes nothing of the memory. -/
theorem wp_leaveFlash (hworks : FlashWorks hw hooks view size) (hsize : s.ctx.saveSize=size)
    (old : UInt16) (ret : ℤ) (ht : Under view s bank m t) :
    wp (leaveFlash hooks old ret) (fun reply u => reply=ret ∧ seen view u=m)
      (fun _ => False) t := by
  unfold leaveFlash
  refine wp_seq (wp_switchFlashBank hworks hsize 0 ht) ?_
  exact fun _ u hu => ⟨rfl,hu.seen_eq⟩

/-- A piece of a write. It ends at the first byte of it that is not taken. -/
theorem wp_flashPiece (hworks : FlashWorks hw hooks view size) (hsize : s.ctx.saveSize=size)
    (hmax : size≤ clCartGbaMaxLinearSaveSize) {erase : ℕ → σ → ℤ×σ}
    {write : ℕ → UInt8 → σ → ℤ×σ} (herase : hooks.eraseFlash=some erase)
    (hwrite : hooks.writeFlashByte=some write) (old : UInt16) {address : ℕ}
    {piece : List UInt8} (hin : address+piece.length≤ size) (hpiece : piece≠[])
    (hfits : address%clCartGbaFlashSectorSize+piece.length≤ clCartGbaFlashSectorSize)
    (hwhole : Whole sectors m) (hbank : bank=0 ∨ clCartGbaSramBankSize<size)
    (ht : Under view s bank m t) :
    wp (flashPiece hw hooks erase write old address piece)
      (fun ret u => (0≤ ret ∧ Accepts flashByte m address piece ∧ ∃ now,
          (now=0 ∨ clCartGbaSramBankSize<size) ∧ Under view s now (putFlash m address piece) u) ∨
        (ret<0 ∧ FlashEndedAt m address piece (seen view u)))
      (fun _ => False) t := by
  have hpos := List.length_pos_iff.mpr hpiece
  obtain ⟨hsector,hnow,hbase,hbaseLt,hwindow,haddress⟩ :=
    piece_places hmax hin hpos hfits hbank
  have haligned := Nat.mul_mod_left
    (address/clCartGbaFlashSectorSize%clCartGbaFlashSectorsPerBank) clCartGbaFlashSectorSize
  have hlower := Nat.div_mul_le_self address clCartGbaFlashSectorSize
  unfold flashPiece
  dsimp only
  rw [if_neg (by omega)]
  refine wp_seq (wp_switchFlashBank hworks hsize _ ht) ?_
  intro _ t ht
  have hbank' : address/clCartGbaSramBankSize=0 ∨ clCartGbaSramBankSize<size := by
    rw [← hnow]
    split
    next hlarge => exact Or.inr hlarge
    · exact hbank
  rw [hnow] at ht
  refine wp_seq (wp_eraseSectorOnce hworks herase hsector hbaseLt haligned hbase (by omega)
    (i := address) rfl ht) ?_
  rintro _ t ⟨rfl,ht⟩
  have hreached := @whole_reach UInt8 sectors flashByte m address hwhole
  have hmarked : ∀ k<piece.length,
      (reach sectors flashByte m address).marks (address+k)=true := by
    intro k hk
    have hsame : sectors.start (address+k)=sectors.start address := by
      rw [sectors_start_eq]
      unfold clCartGbaFlashSectorSize at hfits ⊢
      omega
    rw [hreached _ _ hsame]
    exact reach_self hwhole
  rw [if_neg (by decide),wp_bind]
  have hprogram := wp_programWindow hworks hwrite hwindow
    (by rw [haddress]; exact hin) hreached (by rw [haddress]; exact hmarked) ht
  rw [haddress] at hprogram
  unfold putFlash at hprogram
  rw [putAll_reach hwhole hpiece,accepts_reach hwhole] at hprogram
  refine wp_post hprogram ?_
  rintro ret t (⟨hzero,haccepts,ht⟩ | ⟨hneg,now,hended,ht⟩)
  · have hverify := wp_verifyWindow hworks hwindow (by rw [haddress]; exact hin)
      (by rw [haddress]; exact putAll_taken hwhole haccepts) ht
    rw [if_neg (by omega)]
    refine wp_seq hverify ?_
    rintro right t ⟨rfl,ht⟩
    exact Or.inl ⟨Int.le_refl 0,haccepts,_,hbank',ht⟩
  · rw [if_pos hneg]
    refine wp_post (wp_leaveFlash hworks hsize old ret ht) ?_
    rintro reply u ⟨rfl,hu⟩
    rw [← hu] at hended
    exact Or.inr ⟨hneg,hended.of_reach hwhole⟩

/-- A write to FLASH that is not refused: it succeeds with its effect if every byte is taken,
and ends at the first that is not. -/
theorem wp_linearFlashWrite (hworks : FlashWorks hw hooks view size)
    (hsize : s.ctx.saveSize=size) (hmax : size≤ clCartGbaMaxLinearSaveSize)
    (hbank : view.bank s.dev=0) (hready : view.ready s.dev) {offset : ℕ} {src : List UInt8}
    (hstart : ¬(s.ctx.flashErasedSectorMask=0 ∧ offset≠0)) (hin : offset+src.length≤ size) :
    wp (linearFlashWrite hw hooks offset src)
      (fun ret t => (0≤ ret ∧ Accepts flashByte (seen view s) offset src ∧
          seen view t=putFlash (seen view s) offset src) ∨
        (ret<0 ∧ FlashEndedAt (seen view s) offset src (seen view t)))
      (fun _ => False) s := by
  have hwhole := whole_seen view s
  obtain ⟨erase,herase,-⟩ := hworks.erase
  obtain ⟨write,hwrite,-⟩ := hworks.write
  unfold linearFlashWrite getCtx flashWaitcntEnter
  rw [herase,hwrite]
  dsimp only
  rw [wp_bind,wp_inspect,if_neg hstart,wp_bind,wp_access]
  refine wp_seq (wp_writePieces
    (Q := fun _ u => FlashEndedAt (seen view s) offset src (seen view u))
    (I := fun done u => Accepts flashByte (seen view s) offset done ∧ ∃ now,
      (now=0 ∨ clCartGbaSramBankSize<size) ∧
        Under view s now (putFlash (seen view s) offset done) u)
    (by decide) ?_ ⟨trivial,0,Or.inl rfl,rfl,hbank,hready,rfl⟩) ?_
  · rintro done piece rest u hsplit hpiece hfits ⟨hdone,now,hnow,hu⟩
    have hlength : offset+done.length+piece.length≤ size := by
      rw [hsplit,List.length_append,List.length_append] at hin
      omega
    refine wp_post (wp_flashPiece hworks hsize hmax herase hwrite s.waitcnt hlength hpiece hfits
      (whole_putAll hwhole _ _) hnow hu) ?_
    rintro ret v (⟨hzero,haccepts,now',hnow',hv⟩ | ⟨hneg,hended⟩)
    · refine Or.inr ⟨hzero,(accepts_append idleByte hwhole done piece).mpr ⟨hdone,haccepts⟩,now',hnow',?_⟩
      unfold putFlash
      rw [putAll_append]
      exact hv
    · rw [hsplit]
      exact Or.inl ⟨hneg,hended.behind hwhole rest⟩
  · rintro ret u (⟨hneg,hended⟩ | ⟨rfl,hall,now,hnow,hu⟩)
    · rw [if_pos hneg]
      exact Or.inr ⟨hneg,hended⟩
    · rw [if_neg (by decide)]
      unfold leaveFlash
      refine wp_seq (wp_switchFlashBank hworks hsize 0 hu) ?_
      exact fun _ t ht => Or.inl ⟨Int.le_refl 0,hall,ht.seen_eq⟩

end Contents

end ChisLink.FlashSaveWrites
