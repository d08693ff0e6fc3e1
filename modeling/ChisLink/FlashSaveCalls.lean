import ChisLink.CartSaveArrays
import ChisLink.FlashSaveChip

/-!
# Calls for a FLASH save

A write to a FLASH save changes the bytes that it is given and, in a sector that it is the
first to come to, sets the others to the blank value. After the save was configured or its
size set, an image can be written over any contents. The first bank is selected and the
wait-state register restored after every call, even if the chip reports failures.
-/

namespace ChisLink.FlashSaveCalls

open AlignedTransfers CartSaveDriver DriverPrograms ErasableMemory ErasingWrites
open FlashSaveChip FlashSaveWrites LabelledRuns
open CartSaveArrays (Configured configured_applySaveConfig pieceBank)

variable {σ : Type}

section Calls

variable (hw : CartHardware σ) (hooks : SaveHooks σ)

/-- The calls for a save that was configured. -/
inductive FlashCall where
  /-- Read a part. -/
  | read (offset length : ℕ)
  /-- Write one. -/
  | write (offset : ℕ) (src : List UInt8)
  /-- Set the size. -/
  | setSize (size : ℕ)
  /-- Configure the save once more. -/
  | configure (saveBase : ℕ)

/-- The cartridge after a call. -/
def callFlash (size : ℕ) (s : Cart σ) : FlashCall → Option (Cart σ)
  | .read offset length => some (gbaRead hw hooks .save offset length s).2
  | .write offset src => some (gbaWrite hw hooks .save offset src s).2
  | .setSize n => some (gbaSetSize hw .save n s).2
  | .configure saveBase =>
    some {s with ctx := (clCartGbaConfigureSave .flash size saveBase s.ctx).2}

/-- The sizes of FLASH. -/
def IsFlashSize (size : ℕ) : Prop := size=clCartGbaSramBankSize ∨ size=clCartGbaMaxLinearSaveSize

/-- A FLASH save that was configured, with the first bank. -/
structure Standing (view : FlashView σ) (size : ℕ) (s : Cart σ) : Prop where
  /-- The variables. -/
  configured : Configured size .flash s.ctx
  /-- The bank. -/
  bank : view.bank s.dev=0
  /-- The chip. -/
  ready : view.ready s.dev

/-- A write may begin at an offset: the first one after the marks were cleared has to begin at
the front. -/
def Permitted (s : Cart σ) (offset : ℕ) : Prop :=
  offset≤0xffffffff ∧ (s.ctx.saveSize≤offset ∨ ¬(s.ctx.flashErasedSectorMask=0 ∧ offset≠0))

end Calls

variable {hw : CartHardware σ} {hooks : SaveHooks σ} {view : FlashView σ} {size : ℕ} {s : Cart σ}

section Effects

theorem IsFlashSize.le (h : IsFlashSize size) : size≤ clCartGbaMaxLinearSaveSize := by
  rcases h with rfl | rfl <;> decide

theorem IsFlashSize.pos (h : IsFlashSize size) : 0<size := by
  rcases h with rfl | rfl <;> decide

theorem IsFlashSize.accessible (h : IsFlashSize size) :
    saveSizeIsFileAccessible .flash size=true := by
  rcases h with rfl | rfl <;> decide

theorem standing_of_back {t : Cart σ} (hs : Standing view size s) (h : Back view s t) :
    Standing view size t := by
  refine ⟨?_,h.bank,h.ready⟩
  have hctx := h.ctx
  unfold SameButMask at hctx
  rw [hctx]
  exact ⟨hs.configured.save8,hs.configured.linear,hs.configured.size_eq,hs.configured.type_eq⟩

/-- However a write ends, on any chip. -/
theorem wp_gbaWrite_back (hbanks : FlashBanks hw hooks view size) (hs : Standing view size s)
    (offset : ℕ) (src : List UInt8) :
    wp (gbaWrite hw hooks .save offset src) (fun _ t => Back view s t) (fun _ => False) s := by
  have hself := back_self hs.bank hs.ready
  unfold gbaWrite writeSave getCtx
  split
  · exact hself
  · dsimp only
    rw [wp_bind,wp_inspect,hs.configured.type_eq]
    split
    · exact hself
    · split
      · exact hself
      · rw [if_neg (by decide),if_pos rfl,wp_bind]
        exact wp_linearFlashWrite_back hbanks hs.configured.size_eq hs.bank hs.ready offset _

/-- What a write comes to on a chip that works. A failure is a write that may not begin there,
which changes nothing, or one that ends at a byte that is not taken. -/
theorem wp_gbaWrite (hworks : FlashWorks hw hooks view size) (hsize : IsFlashSize size)
    (hs : Standing view size s) (offset : ℕ) (src : List UInt8) :
    wp (gbaWrite hw hooks .save offset src)
      (fun reply t => Back view s t ∧
        ((reply=(0,(src.take (size-offset)).length) ∧
          Accepts flashByte (seen view s) offset (src.take (size-offset)) ∧
          seen view t=putFlash (seen view s) offset (src.take (size-offset))) ∨
        (reply.1<0 ∧ ((¬Permitted s offset ∧ seen view t=seen view s) ∨
          FlashEndedAt (seen view s) offset (src.take (size-offset)) (seen view t)))))
      (fun _ => False) s := by
  refine wp_mono (wp_and (wp_gbaWrite_back hworks.toFlashBanks hs offset src)
    (R := fun reply t =>
      (reply=(0,(src.take (size-offset)).length) ∧
        Accepts flashByte (seen view s) offset (src.take (size-offset)) ∧
        seen view t=putFlash (seen view s) offset (src.take (size-offset))) ∨
      (reply.1<0 ∧ ((¬Permitted s offset ∧ seen view t=seen view s) ∨
        FlashEndedAt (seen view s) offset (src.take (size-offset)) (seen view t))))
    (E := fun _ => False) ?_) (fun _ _ h => h) (fun _ h => h.1)
  unfold gbaWrite writeSave getCtx
  split
  next hlarge => exact Or.inr ⟨by decide,Or.inl ⟨fun h => absurd h.1 (by omega),rfl⟩⟩
  next hsmall =>
    dsimp only
    rw [wp_bind,wp_inspect,hs.configured.save8,hs.configured.linear,hs.configured.size_eq,
      hs.configured.type_eq]
    have hthere : ¬((true=false) ∨ (true=false)) := by
      rintro (h | h) <;> cases h
    rw [if_neg hthere]
    split
    next hend =>
      have hnone : size-offset=0 := by omega
      rw [hnone,List.take_zero]
      exact Or.inl ⟨rfl,trivial,rfl⟩
    next hin =>
      have hclip : offset+(src.take (size-offset)).length≤ size := by
        rw [List.length_take]
        omega
      rw [if_neg (by decide),if_pos rfl,wp_bind]
      by_cases hrefused : s.ctx.flashErasedSectorMask=0 ∧ offset≠0
      · -- a write that may not begin there is refused
        obtain ⟨erase,herase,-⟩ := hworks.erase
        obtain ⟨write,hwrite,-⟩ := hworks.write
        unfold linearFlashWrite getCtx
        rw [herase,hwrite]
        dsimp only
        rw [wp_bind,wp_inspect,if_pos hrefused]
        refine Or.inr ⟨Int.negSucc_lt_zero 5,Or.inl ⟨fun h => ?_,rfl⟩⟩
        have hbegin := h.2
        rw [hs.configured.size_eq] at hbegin
        exact hbegin.elim (fun hle => hin hle) (fun hno => hno hrefused)
      · refine wp_post (wp_linearFlashWrite hworks hs.configured.size_eq hsize.le hs.bank hs.ready
          hrefused hclip) ?_
        rintro ret t (⟨hzero,haccepts,hseen⟩ | ⟨hneg,hended⟩)
        · refine Or.inl ⟨?_,haccepts,hseen⟩
          unfold writeReply
          rw [if_neg (by omega)]
        · refine Or.inr ⟨?_,Or.inr hended⟩
          unfold writeReply
          rw [if_pos hneg]
          exact hneg

theorem keeps_readWindow (hbanks : FlashBanks hw hooks view size) (a n : ℕ) :
    Keeps (Midway view size s) (readWindow hw a n) := by
  induction n generalizing a with
  | zero => exact keeps_pure []
  | succ n ih =>
    unfold readWindow
    refine (keeps_onDevice (hbanks.read_bank a)).bind fun value => (ih (a+1)).bind fun rest => ?_
    exact keeps_pure _

/-- However a read ends, on any chip. -/
theorem wp_gbaRead_back (hbanks : FlashBanks hw hooks view size) (hs : Standing view size s)
    (offset length : ℕ) :
    wp (gbaRead hw hooks .save offset length) (fun _ t => Back view s t) (fun _ => False) s := by
  have hself := back_self hs.bank hs.ready
  unfold gbaRead readSave getCtx
  split
  · exact hself
  · dsimp only
    rw [wp_bind,wp_inspect,hs.configured.type_eq]
    split
    · exact hself
    · split
      · exact hself
      · rw [if_neg (by decide),wp_bind]
        unfold linearSaveRead getCtx flashWaitcntEnter
        rw [wp_bind,wp_inspect,hs.configured.type_eq,if_pos rfl,wp_bind,wp_access,wp_bind]
        have hpieces := @keeps_readPieces _ _ (Midway view size s) clCartGbaSramBankSize
          (readBankPiece hw hooks .flash) (fun address n => by
            unfold readBankPiece selectBank
            rw [if_pos rfl]
            refine Keeps.bind (fun t ht =>
              wp_switchFlashBank_midway hbanks hs.configured.size_eq _ ht) fun _ => ?_
            exact (keeps_readWindow hbanks _ n).bind fun data => keeps_pure _)
        refine wp_post (hpieces _ _ _ _ ⟨rfl,Or.inl hs.bank,hs.ready⟩) ?_
        intro data t ht
        rw [wp_bind]
        have hleave := wp_leaveFlash_back hbanks hs.configured.size_eq 0 ht
        unfold leaveFlash at hleave
        rw [wp_bind] at hleave
        exact wp_post hleave (fun _ _ h => h.2)

theorem wp_readWindow (hworks : FlashWorks hw hooks view size) {m : Marked UInt8} {bank a n : ℕ}
    (ha : a+n≤ clCartGbaSramBankSize) (hin : bank*clCartGbaSramBankSize+a+n≤ size) {t : Cart σ}
    (ht : Under view s bank m t) :
    wp (readWindow hw a n)
      (fun data u => data=cellsAt m.cells (bank*clCartGbaSramBankSize+a) n ∧
        Under view s bank m u)
      (fun _ => False) t := by
  induction n generalizing a t with
  | zero => exact ⟨rfl,ht⟩
  | succ n ih =>
    unfold readWindow
    refine wp_seq (wp_saveRead8 hworks (by omega) (by omega) ht) ?_
    rintro value u ⟨rfl,hu⟩
    refine wp_seq (ih (by omega) (by omega) hu) ?_
    rintro rest v ⟨rfl,hv⟩
    refine ⟨?_,hv⟩
    rw [Nat.add_comm n 1,cellsAt_add,Nat.add_assoc (bank*clCartGbaSramBankSize)]
    rfl

/-- What a read comes to on a chip that works. -/
theorem wp_gbaRead (hworks : FlashWorks hw hooks view size) (hsize : IsFlashSize size)
    (hs : Standing view size s) (offset length : ℕ) :
    wp (gbaRead hw hooks .save offset length)
      (fun reply t => seen view t=seen view s ∧ (offset≤0xffffffff →
        reply=(0,cellsAt (view.cells s.dev) offset (min (size-offset) length))))
      (fun _ => False) s := by
  unfold gbaRead readSave getCtx
  split
  next hlarge => exact ⟨rfl,fun h => absurd h (by omega)⟩
  next hsmall =>
    have hpos := hsize.pos
    dsimp only
    rw [wp_bind,wp_inspect,hs.configured.save8,hs.configured.linear,hs.configured.size_eq,
      hs.configured.type_eq]
    have hthere : ¬((true=false) ∨ size=0 ∨ (true=false)) := by
      rintro (h | h | h)
      · cases h
      · omega
      · cases h
    rw [if_neg hthere]
    split
    next hend =>
      have hnone : size-offset=0 := by omega
      rw [hnone,Nat.zero_min]
      exact ⟨rfl,fun _ => rfl⟩
    next hin =>
      have hclip : offset+min (size-offset) length≤ size := by omega
      have hmax := hsize.le
      rw [if_neg (by decide),wp_bind]
      unfold linearSaveRead getCtx flashWaitcntEnter
      rw [wp_bind,wp_inspect,hs.configured.type_eq,if_pos rfl,wp_bind,wp_access]
      refine wp_seq (wp_readPieces_cells (Q := fun _ _ => False) (view.cells s.dev)
        (I := fun _ u => ∃ bank,Under view s bank (seen view s) u ∧
          (bank=0 ∨ clCartGbaSramBankSize<size))
        (by decide) ?_ ⟨0,⟨rfl,hs.bank,hs.ready,rfl⟩,Or.inl rfl⟩) ?_
      · rintro k n u hk hn hpiece ⟨bank,hu,hbank⟩
        have haddress := @pieceBank size bank (offset+k) n hmax hn (by omega) hbank
        unfold readBankPiece selectBank
        rw [if_pos rfl]
        refine wp_seq (wp_switchFlashBank hworks hs.configured.size_eq _ hu) ?_
        intro _ v hv
        refine wp_seq (wp_readWindow hworks hpiece (by omega) hv) ?_
        rintro data w ⟨rfl,hw⟩
        rw [haddress]
        refine ⟨rfl,_,hw,?_⟩
        split
        next hlarge => exact Or.inr hlarge
        · exact hbank
      · intro reply u hreply
        cases reply with
        | error ret => exact hreply.elim
        | ok data =>
          obtain ⟨rfl,bank,hu,hbank⟩ := hreply
          refine wp_seq (wp_switchFlashBank hworks hs.configured.size_eq 0 hu) ?_
          exact fun _ v hv => ⟨hv.seen_eq,fun _ => rfl⟩

/-- Setting the size of the save clears the marks, if it is not refused. -/
theorem wp_gbaSetSize (hs : Standing view size s) (n : ℕ) :
    wp (gbaSetSize hw .save n)
      (fun ret t => Back view s t ∧ view.cells t.dev=view.cells s.dev ∧
        (ret=0 → t.ctx.flashErasedSectorMask=0))
      (fun _ => False) s := by
  unfold gbaSetSize getCtx
  dsimp only
  rw [wp_bind,wp_inspect]
  split
  · exact ⟨back_self hs.bank hs.ready,rfl,fun h => absurd h (by decide)⟩
  · exact ⟨⟨rfl,rfl,hs.bank,hs.ready⟩,rfl,fun _ => rfl⟩

/-- Configuring the save clears them too. -/
theorem standing_configure (hsize : IsFlashSize size) (hrom : s.ctx.romBase≠0)
    (hbank : view.bank s.dev=0) (hready : view.ready s.dev) (saveBase : ℕ) :
    Standing view size
        {s with ctx := (clCartGbaConfigureSave .flash size saveBase s.ctx).2} ∧
      (clCartGbaConfigureSave .flash size saveBase s.ctx).2.flashErasedSectorMask=0 := by
  unfold clCartGbaConfigureSave
  rw [if_neg hrom]
  refine ⟨⟨configured_applySaveConfig _ rfl hsize.accessible hsize.pos,hbank,hready⟩,?_⟩
  unfold applySaveConfig
  dsimp only
  split <;> rfl

/-- Every call leaves the save standing, on any chip. -/
theorem standing_callFlash (hbanks : FlashBanks hw hooks view size) (hsize : IsFlashSize size)
    (hs : Standing view size s) (call : FlashCall) {t : Cart σ}
    (ht : callFlash hw hooks size s call=some t) :
    Standing view size t ∧ t.waitcnt=s.waitcnt := by
  cases call with
  | read offset length =>
    obtain ⟨reply,u,hrun,hu⟩ := wp_total (wp_gbaRead_back hbanks hs offset length)
    cases ht
    rw [hrun]
    exact ⟨standing_of_back hs hu,hu.waitcnt⟩
  | write offset src =>
    obtain ⟨reply,u,hrun,hu⟩ := wp_total (wp_gbaWrite_back hbanks hs offset src)
    cases ht
    rw [hrun]
    exact ⟨standing_of_back hs hu,hu.waitcnt⟩
  | setSize n =>
    obtain ⟨ret,u,hrun,hu,-⟩ := wp_total (@wp_gbaSetSize σ hw view size s hs n)
    cases ht
    rw [hrun]
    exact ⟨standing_of_back hs hu,hu.waitcnt⟩
  | configure saveBase =>
    cases ht
    by_cases hrom : s.ctx.romBase=0
    · unfold clCartGbaConfigureSave
      rw [if_pos hrom]
      exact ⟨hs,rfl⟩
    · exact ⟨(standing_configure hsize hrom hs.bank hs.ready saveBase).1,rfl⟩

end Effects

section Range

/-- A sector that a write is the first to come to: it has no mark. -/
def ComesFirst (view : FlashView σ) (s : Cart σ) (offset n i : ℕ) : Prop :=
  (seen view s).marks i=false ∧
    ∃ k<n,i/clCartGbaFlashSectorSize=(offset+k)/clCartGbaFlashSectorSize

/-- What is right of a call: a write that succeeds puts its bytes into the save. Of the other
bytes, those of the sectors that it is the first to come to are blank, and all others as
before. -/
def Ranged (hw : CartHardware σ) (hooks : SaveHooks σ) (view : FlashView σ) (size : ℕ)
    (s : Cart σ) : FlashCall → Prop
  | .write offset src => wp (gbaWrite hw hooks .save offset src)
    (fun reply t => reply.1=0 → reply.2=(src.take (size-offset)).length ∧
      (∀ (k : ℕ) (hk : k<(src.take (size-offset)).length),
        view.cells t.dev (offset+k)=(src.take (size-offset)).get ⟨k,hk⟩) ∧
      ∀ i,i<offset ∨ offset+reply.2≤ i →
        (ComesFirst view s offset reply.2 i → view.cells t.dev i=0xff) ∧
        (¬ComesFirst view s offset reply.2 i → view.cells t.dev i=view.cells s.dev i))
    (fun _ => False) s
  | _ => True

theorem ranged_of_standing (hworks : FlashWorks hw hooks view size) (hsize : IsFlashSize size)
    (hs : Standing view size s) (call : FlashCall) : Ranged hw hooks view size s call := by
  cases call with
  | write offset src =>
    refine wp_post (wp_gbaWrite hworks hsize hs offset src) ?_
    rintro reply t ⟨-,⟨rfl,haccepts,hseen⟩ | ⟨hneg,-⟩⟩ hzero
    · have hwhole := whole_seen view s
      have hcells : view.cells t.dev=(putFlash (seen view s) offset
          (src.take (size-offset))).cells := congrArg Marked.cells hseen
      refine ⟨rfl,fun k hk => ?_,fun i hi => ?_⟩
      · rw [hcells]
        exact putAll_taken hwhole haccepts k hk
      · obtain ⟨hblank,hkept⟩ := @putAll_outside UInt8 sectors flashByte idleByte (seen view s) i
          offset (src.take (size-offset)) hwhole hi
        simp only [sectors_start_eq] at hblank hkept
        rw [hcells]
        refine ⟨fun hfirst => hblank hfirst.1 hfirst.2,fun hno => hkept ?_⟩
        cases hmark : (seen view s).marks i with
        | true => exact Or.inl rfl
        | false => exact Or.inr fun hreach => hno ⟨hmark,hreach⟩
    · omega
  | _ => trivial

/-- In every run of calls, at any offsets, every write to a FLASH save that succeeds changes
only what it is given and the rest of the sectors that it is the first to come to. -/
theorem flash_writes_ranged (hw : CartHardware σ) (hooks : SaveHooks σ) (view : FlashView σ)
    (size : ℕ) (hsize : IsFlashSize size) (hworks : FlashWorks hw hooks view size)
    (start : Cart σ) (hstart : Standing view size start) (trace : List (Cart σ×FlashCall))
    (last : Cart σ) (run : Run (callFlash hw hooks size) start trace last) :
    EveryStep (Ranged hw hooks view size) trace := by
  have hall := run.always hstart fun s call t hs ht =>
    (standing_callFlash hworks.toFlashBanks hsize hs call ht).1
  exact fun entry hentry => ranged_of_standing hworks hsize (hall.1 entry hentry) entry.2

/-- A cartridge with a chip full of zeros. -/
def zeroCart : Cart FlashChip where
  dev := ⟨fun _ => 0,0,.idle,[]⟩
  ctx := {initialCtx with romBase := clCartGbaDefaultRomBase}
  waitcnt := 0x4317

/-- The same after the save was configured. -/
def flashCart : Cart FlashChip :=
  {zeroCart with
    ctx := (clCartGbaConfigureSave .flash clCartGbaSramBankSize 0 zeroCart.ctx).2}

theorem flashCart_standing : Standing flashView clCartGbaSramBankSize flashCart :=
  (@standing_configure FlashChip flashView clCartGbaSramBankSize zeroCart (Or.inl rfl) (by decide)
    rfl rfl 0).1

/-- The run of one write. -/
theorem flash_writes_ranged_first :
    EveryStep (Ranged flashHardware flashHooks flashView clCartGbaSramBankSize)
      [(flashCart,.write 0 [1])] :=
  flash_writes_ranged flashHardware flashHooks flashView clCartGbaSramBankSize (Or.inl rfl)
    (flash_works _) flashCart flashCart_standing _ _ (Run.nil.snoc rfl)

/-- A write of one byte that succeeds and changes the byte behind it. -/
theorem flash_write_changes_next :
    (gbaWrite flashHardware flashHooks .save 0 [1] flashCart).1=some (0,1) ∧
      flashCart.dev.cells 1=0 ∧
      (gbaWrite flashHardware flashHooks .save 0 [1] flashCart).2.dev.cells 1=0xff := by
  decide +kernel

end Range

section Restoring

/-- Write successive pieces from an offset on. -/
def writeSequence (hw : CartHardware σ) (hooks : SaveHooks σ) (offset : ℕ) :
    List (List UInt8) → Prog (Cart σ) (List (ℤ×ℕ))
  | [] => pure []
  | piece::pieces => do
    let reply ← gbaWrite hw hooks .save offset piece
    let replies ← writeSequence hw hooks (offset+piece.length) pieces
    pure (reply::replies)

/-- What the replies are if every piece is written. -/
def allWritten (pieces : List (List UInt8)) : List (ℤ×ℕ) := pieces.map fun piece => (0,piece.length)

/-- A write may go on behind what was written. -/
theorem permitted_behind (hsize : IsFlashSize size)
    {m : Marked UInt8} (hwhole : Whole sectors m) {done : List UInt8} (hlength : done.length≤ size)
    (hseen : seen view s=putFlash m 0 done) : Permitted s done.length := by
  have hmax := hsize.le
  refine ⟨?_,Or.inr ?_⟩
  · unfold clCartGbaMaxLinearSaveSize at hmax
    omega
  · rintro ⟨hmask,hpos⟩
    have hmark : (seen view s).marks 0=true := by
      rw [hseen]
      exact (putAll_marks hwhole).mpr (Or.inr ⟨0,by omega,rfl⟩)
    have hclear : (seen view s).marks 0=false := by
      change s.ctx.flashErasedSectorMask.toNat.testBit _=false
      rw [hmask]
      exact Nat.zero_testBit _
    exact Bool.false_ne_true (hclear.symm.trans hmark)

/-- However a sequence of writes goes, on any chip. -/
theorem wp_writeSequence_back (hbanks : FlashBanks hw hooks view size) (offset : ℕ)
    (pieces : List (List UInt8)) (hs : Standing view size s) :
    wp (writeSequence hw hooks offset pieces) (fun _ t => Back view s t) (fun _ => False) s := by
  induction pieces generalizing offset s with
  | nil => exact back_self hs.bank hs.ready
  | cons piece pieces ih =>
    unfold writeSequence
    refine wp_seq (wp_gbaWrite_back hbanks hs offset piece) ?_
    intro reply t ht
    exact wp_seq (ih _ (standing_of_back hs ht)) (fun _ _ h => ht.trans h)

/-- Writing pieces behind others: all are written exactly if every byte is taken. -/
theorem wp_writeSequence (hworks : FlashWorks hw hooks view size) (hsize : IsFlashSize size)
    {m : Marked UInt8} (hwhole : Whole sectors m) (pieces : List (List UInt8))
    (done : List UInt8) (hlength : (done++pieces.flatten).length≤ size)
    (hs : Standing view size s) (hdone : Accepts flashByte m 0 done)
    (hseen : seen view s=putFlash m 0 done) :
    wp (writeSequence hw hooks done.length pieces)
      (fun replies t =>
        (replies=allWritten pieces ∧ Accepts flashByte m 0 (done++pieces.flatten) ∧
          seen view t=putFlash m 0 (done++pieces.flatten)) ∨
        (replies≠allWritten pieces ∧ ¬Accepts flashByte m 0 (done++pieces.flatten)))
      (fun _ => False) s := by
  induction pieces generalizing done s with
  | nil =>
    rw [List.flatten_nil,List.append_nil]
    exact Or.inl ⟨rfl,hdone,hseen⟩
  | cons piece pieces ih =>
    rw [List.flatten_cons,← List.append_assoc] at hlength ⊢
    have hpart : (done++piece).length≤ size := by
      rw [List.length_append] at hlength
      omega
    rw [List.length_append] at hpart
    have htake : piece.take (size-done.length)=piece := List.take_of_length_le (by omega)
    have hwrite := wp_gbaWrite hworks hsize hs done.length piece
    rw [htake,hseen] at hwrite
    have hsplit := @accepts_append UInt8 sectors flashByte m 0 idleByte hwhole done piece
    have hboth := @putAll_append UInt8 sectors flashByte idleByte m 0 done piece
    rw [Nat.zero_add] at hsplit hboth
    unfold writeSequence
    refine wp_seq hwrite ?_
    rintro reply t ⟨hback,⟨rfl,haccepts,hnow⟩ | ⟨hneg,hfailed⟩⟩
    · have hrest := ih (done++piece) hlength (standing_of_back hs hback) (hsplit.mpr ⟨hdone,haccepts⟩)
        (hnow.trans hboth.symm)
      rw [List.length_append] at hrest
      refine wp_seq hrest ?_
      rintro replies u (⟨rfl,hu⟩ | ⟨hne,hu⟩)
      · exact Or.inl ⟨rfl,hu⟩
      · exact Or.inr ⟨fun h => hne (List.cons.inj h).2,hu⟩
    · refine wp_seq (wp_writeSequence_back hworks.toFlashBanks _ pieces
        (standing_of_back hs hback)) ?_
      intro replies u _
      refine Or.inr ⟨fun h => ?_,fun hall => ?_⟩
      · have hfirst := congrArg Prod.fst (List.cons.inj h).1
        dsimp only at hfirst
        omega
      · rw [accepts_append idleByte hwhole,hsplit] at hall
        have hpermitted := permitted_behind hsize hwhole (by omega) hseen
        rcases hfailed with ⟨hno,-⟩ | hended
        · exact hno hpermitted
        · exact hended.not_accepts (whole_putAll hwhole _ _) hall.1.2

/-- A save that was just configured, or whose size was set. -/
inductive Prepared (hw : CartHardware σ) (view : FlashView σ) (size : ℕ) : Cart σ → Prop where
  /-- It was configured, when the first bank was selected. -/
  | configured (s : Cart σ) (saveBase : ℕ) (hrom : s.ctx.romBase≠0)
      (hbank : view.bank s.dev=0) (hready : view.ready s.dev) : Prepared hw view size
        {s with ctx := (clCartGbaConfigureSave .flash size saveBase s.ctx).2}
  /-- Its size was set, and that was not refused. -/
  | sized (s t : Cart σ) (n : ℕ) (hs : Standing view size s)
      (hset : gbaSetSize hw .save n s=(some 0,t)) : Prepared hw view size t

theorem Prepared.standing (hsize : IsFlashSize size) (h : Prepared hw view size s) :
    Standing view size s ∧ s.ctx.flashErasedSectorMask=0 := by
  cases h with
  | configured s saveBase hrom hbank hready =>
    exact standing_configure hsize hrom hbank hready saveBase
  | sized s t n hs hset =>
    obtain ⟨ret,u,hrun,hback,-,hmask⟩ := wp_total (@wp_gbaSetSize σ hw view size s hs n)
    obtain ⟨hret,rfl⟩ : some ret=some 0 ∧ u=_ := Prod.mk.inj (hrun.symm.trans hset)
    exact ⟨standing_of_back hs hback,hmask (Option.some.inj hret)⟩

/-- Over any contents, an image that is written in pieces to a save that is prepared is there
afterwards. Every sector is erased once, before anything of it is programmed. The first bank is
selected and the register as before after every call, and this on any chip. -/
theorem first_restore (hw : CartHardware σ) (hooks : SaveHooks σ) (view : FlashView σ)
    (size : ℕ) (hsize : IsFlashSize size) (s : Cart σ) (hprepared : Prepared hw view size s) :
    (FlashWorks hw hooks view size → ∀ pieces : List (List UInt8),
      pieces.flatten.length=size →
      wp (writeSequence hw hooks 0 pieces)
        (fun replies t => replies=allWritten pieces ∧
          cellsAt (view.cells t.dev) 0 size=pieces.flatten ∧
          ∃ done,view.ops t.dev=view.ops s.dev++done ∧ ∀ sector,
            sector*clCartGbaFlashSectorSize<size →
            ErasedOnceFirst sectors done (sector*clCartGbaFlashSectorSize))
        (fun _ => False) s) ∧
    (FlashBanks hw hooks view size → ∀ (trace : List (Cart σ×FlashCall)) (last : Cart σ),
      Run (callFlash hw hooks size) s trace last →
      Always (fun t => view.bank t.dev=0 ∧ t.waitcnt=s.waitcnt) trace last) := by
  obtain ⟨hs,hmask⟩ := hprepared.standing hsize
  refine ⟨fun hworks pieces hlength => ?_,fun hbanks trace last run => ?_⟩
  · have hwhole := whole_seen view s
    have hclear : ∀ i,(seen view s).marks i=false := by
      intro i
      change s.ctx.flashErasedSectorMask.toNat.testBit _=false
      rw [hmask]
      exact Nat.zero_testBit _
    have haccepts : Accepts flashByte (seen view s) 0 pieces.flatten :=
      accepts_of_clear fun k _ => hclear _
    refine wp_post (wp_writeSequence hworks hsize hwhole pieces [] (by
      rw [List.nil_append]
      omega) hs trivial rfl) ?_
    rintro replies t (⟨hreplies,-,hseen⟩ | ⟨-,hno⟩)
    · obtain ⟨done,hdone,hblocks⟩ :=
        @putAll_ops UInt8 sectors flashByte idleByte (seen view s) 0 pieces.flatten hwhole
      have hcells : view.cells t.dev=(putFlash (seen view s) 0 pieces.flatten).cells :=
        congrArg Marked.cells hseen
      refine ⟨hreplies,?_,done,(congrArg Marked.ops hseen).trans hdone,fun sector hin => ?_⟩
      · rw [← hlength,hcells]
        exact cellsAt_eq (putAll_taken hwhole haccepts)
      · have hblock : sectors.start (sector*clCartGbaFlashSectorSize)=
            sector*clCartGbaFlashSectorSize := by
          change sector*clCartGbaFlashSectorSize/clCartGbaFlashSectorSize*_=_
          rw [Nat.mul_div_cancel sector (by decide)]
        obtain ⟨programs,hworked⟩ := hblocks _ hblock
        refine ⟨programs,hworked.erased (hclear _) ⟨_,by rw [hlength]; exact hin,?_⟩,
          hworked.onlyPrograms⟩
        rw [Nat.zero_add]
        exact hblock
    · exact absurd haccepts hno
  · have hall := run.always (I := fun t => Standing view size t ∧ t.waitcnt=s.waitcnt) ⟨hs,rfl⟩
      fun t call u ht hu => by
        obtain ⟨hstanding,hsame⟩ := standing_callFlash hbanks hsize ht.1 call hu
        exact ⟨hstanding,hsame.trans ht.2⟩
    exact ⟨fun entry hentry => ⟨(hall.1 entry hentry).1.bank,(hall.1 entry hentry).2⟩,
      hall.2.1.bank,hall.2.2⟩

/-- An image in one piece. -/
def plainImage : List (List UInt8) := [List.replicate clCartGbaSramBankSize 0x5a]

theorem length_plainImage : plainImage.flatten.length=clCartGbaSramBankSize := by
  unfold plainImage
  rw [List.flatten_cons,List.flatten_nil,List.append_nil,List.length_replicate]

/-- The image written to the save of that cartridge, and the run without calls. -/
theorem first_restore_plain :
    wp (writeSequence flashHardware flashHooks 0 plainImage)
      (fun replies t => replies=allWritten plainImage ∧
        cellsAt (flashView.cells t.dev) 0 clCartGbaSramBankSize=plainImage.flatten ∧
        ∃ done,flashView.ops t.dev=flashView.ops flashCart.dev++done ∧ ∀ sector,
          sector*clCartGbaFlashSectorSize<clCartGbaSramBankSize →
          ErasedOnceFirst sectors done (sector*clCartGbaFlashSectorSize))
      (fun _ => False) flashCart ∧
    Always (fun t => flashView.bank t.dev=0 ∧ t.waitcnt=flashCart.waitcnt)
      ([] : List (Cart FlashChip×FlashCall)) flashCart := by
  have hprepared : Prepared flashHardware flashView clCartGbaSramBankSize flashCart :=
    .configured zeroCart 0 (by decide) rfl rfl
  -- no call is evaluated on the cartridge
  generalize flashCart=cart at hprepared ⊢
  have hboth := first_restore flashHardware flashHooks flashView clCartGbaSramBankSize (Or.inl rfl)
    cart hprepared
  exact ⟨hboth.1 (flash_works _) plainImage length_plainImage,
    hboth.2 (flash_works _).toFlashBanks [] cart Run.nil⟩

end Restoring

end ChisLink.FlashSaveCalls
