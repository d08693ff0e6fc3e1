import ChisLink.CartSaveFiles

/-!
# Sessions that restore a FLASH save

A session opens the save for writing, writes an image in pieces and closes it. The driver
marks the sectors that it has erased, and the marks outlast the session: a later one
programs over what an earlier one wrote. A session is right exactly if it finds nothing but
blank bytes, in the save and in its image, wherever a sector is marked.
-/

namespace ChisLink.SaveSessions

open AlignedTransfers CartFile CartSaveDriver CartSaveFiles DriverPrograms ErasableMemory
open ErasingWrites FileLayer FileOperations FlashSaveCalls FlashSaveChip FlashSaveWrites
open LabelledRuns StorageClient

variable {σ D : Type}

section Sessions

/-- The path of the save as a string. -/
def savePath : CString := ⟨clCartSavePath,by decide⟩

/-- The pieces of an image are written one after the other. A writer may give up when one of
them fails, or go on. -/
def writeImage (giveUp : Bool) (l : ℕ) :
    List (List UInt8) → CartFiles D → List (ℤ×UInt32)×CartFiles D
  | [],s => ([],s)
  | piece::pieces,s =>
    let reply := cartWrite l piece s
    if giveUp=true ∧ reply.1.1<0 then ([reply.1],reply.2)
    else
      let rest := writeImage giveUp l pieces reply.2
      (reply.1::rest.1,rest.2)

/-- A session: the replies to its writes, unless the save cannot be opened. -/
def session (pieces : List (List UInt8)) (giveUp : Bool) (s : CartFiles D) :
    Option (List (ℤ×UInt32))×CartFiles D :=
  let opened := cartOpen savePath (clpOpenWrite ||| clpOpenTruncate) s
  if opened.1.1<0 then (none,opened.2)
  else
    let written := writeImage giveUp opened.1.2 pieces opened.2
    (some written.1,(cartClose opened.1.2 written.2).2)

/-- What is done with a save that was configured. -/
inductive SaveAction where
  /-- A session. -/
  | session (pieces : List (List UInt8)) (giveUp : Bool)
  /-- The save is configured once more, in the same way. -/
  | configure (saveBase : ℕ)

/-- The files after an action. -/
def act (size : ℕ) (s : CartFiles (Cart σ)) : SaveAction → Option (CartFiles (Cart σ))
  | .session pieces giveUp => some (session pieces giveUp s).2
  | .configure saveBase => some {s with world := {s.world with
      ctx := (clCartGbaConfigureSave .flash size saveBase s.world.ctx).2}}

end Sessions

section Claims

variable (view : FlashView σ) (size : ℕ)

/-- The replies if every piece is written. -/
def allPieces (pieces : List (List UInt8)) : List (ℤ×UInt32) :=
  pieces.map fun piece => (0,UInt32.ofNat piece.length)

/-- Every write of a full image succeeds and the save is the image. -/
def Restored (s : CartFiles (Cart σ)) : SaveAction → Prop
  | .session pieces giveUp => pieces.flatten.length=size →
    (session pieces giveUp s).1=some (allPieces pieces) ∧
    cellsAt (view.cells (session pieces giveUp s).2.world.dev) 0 size=pieces.flatten
  | .configure _ => True

/-- Of the operations that a session does on a sector, none programs before one erases. -/
def ErasedFirst (s : CartFiles (Cart σ)) : SaveAction → Prop
  | .session pieces giveUp => ∃ done,
    view.ops (session pieces giveUp s).2.world.dev=view.ops s.world.dev++done ∧
    ∀ sector first rest,
      done.filter (MemoryOp.touches sectors (sector*clCartGbaFlashSectorSize))=first::rest →
      first.programs=false
  | .configure _ => True

/-- The bytes of an image, clipped at the size of the save. -/
def imageOf (pieces : List (List UInt8)) : List UInt8 := pieces.flatten.take size

/-- Whether the driver has marked the sector of a byte. -/
def Marks (s : CartFiles (Cart σ)) (i : ℕ) : Prop :=
  s.world.ctx.flashErasedSectorMask.toNat.testBit (i/clCartGbaFlashSectorSize)=true

/-- In the marked sectors, the save and the image have nothing but blank bytes. -/
def MarkedBlank (s : CartFiles (Cart σ)) : SaveAction → Prop
  | .session pieces _ => ∀ i v,(imageOf size pieces)[i]?=some v → Marks s i →
    view.cells s.world.dev i=0xff ∧ v=0xff
  | .configure _ => True

/-- In the marked sectors, the bytes of a full image set no bit that is clear in the save. -/
def MarkedTaken (s : CartFiles (Cart σ)) : SaveAction → Prop
  | .session pieces _ => pieces.flatten.length=size → ∀ i v,(imageOf size pieces)[i]?=some v →
    Marks s i → view.cells s.world.dev i &&& v=v
  | .configure _ => True

end Claims

section Opening

variable {hw : CartHardware σ} {hooks : SaveHooks σ} {image : Bool → Cart σ → InfoBytes}
  {view : FlashView σ} {size : ℕ} {s : CartFiles (Cart σ)}

/-- The probe of the ROM changes nothing of the save. -/
structure ProbeKeeps (hw : CartHardware σ) (view : FlashView σ) : Prop where
  /-- Not its contents. -/
  cells : ∀ d,view.cells (hw.norProbe d).2=view.cells d
  /-- Not the bank. -/
  bank : ∀ d,view.bank (hw.norProbe d).2=view.bank d
  /-- Nothing is done by its chip. -/
  ops : ∀ d,view.ops (hw.norProbe d).2=view.ops d
  /-- The chip stays ready. -/
  ready : ∀ d,view.ready d → view.ready (hw.norProbe d).2

/-- The files of a cartridge with a save that was configured and a handle that is free. -/
structure SaveFiles (hw : CartHardware σ) (hooks : SaveHooks σ)
    (image : Bool → Cart σ → InfoBytes) (view : FlashView σ) (size : ℕ)
    (s : CartFiles (Cart σ)) : Prop where
  /-- The driver is installed. -/
  driver : s.driver=gbaDriver hw hooks image
  /-- The save. -/
  standing : Standing view size s.world
  /-- The ROM has an address. -/
  romBase : s.world.ctx.romBase≠0
  /-- It has a size. -/
  romSize : s.world.ctx.romSize≠0
  /-- The handle. -/
  free : ∃ i,(s.slots i).isOpen=false

/-- The save is open for writing through a slot, at an offset. -/
structure Writing (hw : CartHardware σ) (hooks : SaveHooks σ)
    (image : Bool → Cart σ → InfoBytes) (view : FlashView σ) (size : ℕ)
    (i : Fin clCartMaxHandles) (n : ℕ) (s : CartFiles (Cart σ)) : Prop where
  /-- The driver is installed. -/
  driver : s.driver=gbaDriver hw hooks image
  /-- The save. -/
  standing : Standing view size s.world
  /-- The ROM has an address. -/
  romBase : s.world.ctx.romBase≠0
  /-- It has a size. -/
  romSize : s.world.ctx.romSize≠0
  /-- The slot. -/
  slot : ∃ flushed,s.slots i=
    ⟨.save,clpOpenWrite ||| clpOpenTruncate,UInt64.ofNat n,0,flushed,false,true⟩
  /-- The offset is in the save or at its end. -/
  inside : n≤ size

/-- What `gba_info` finds. -/
theorem wp_gbaInfo {s : Cart σ} (hbase : s.ctx.romBase≠0) (hrom : s.ctx.romSize≠0) :
    wp (gbaInfo hw hooks image) (fun reply t => reply.1=0 ∧
      reply.2.canWriteSave=(s.ctx.saveLinear && hasSaveWriter hooks s.ctx.saveType) ∧
      t={s with dev := (hw.norProbe s.dev).2}) (fun _ => False) s := by
  unfold gbaInfo getCtx
  rw [wp_bind,wp_inspect,if_neg (fun h => h.elim hbase hrom)]
  exact ⟨rfl,rfl,rfl⟩

/-- A probe of the ROM leaves the save standing. -/
theorem standing_probed (hprobe : ProbeKeeps hw view) {s : Cart σ}
    (h : Standing view size s) :
    Standing view size {s with dev := (hw.norProbe s.dev).2} ∧
      seen view {s with dev := (hw.norProbe s.dev).2}=seen view s := by
  refine ⟨⟨h.configured,(hprobe.bank s.dev).trans h.bank,hprobe.ready s.dev h.ready⟩,?_⟩
  unfold seen
  dsimp only
  rw [hprobe.cells,hprobe.ops]

/-- A slot is found if there is one. -/
theorem freeCartSlot_some (h : ∃ i,(s.slots i).isOpen=false) :
    ∃ i,freeCartSlot s=some i := by
  obtain ⟨i,hi⟩ := h
  refine Option.isSome_iff_exists.mp (List.find?_isSome.mpr ⟨i,List.mem_finRange i,?_⟩)
  exact decide_eq_true hi

/-- The save can be opened for writing. -/
theorem cartOpen_save (hworks : FlashWorks hw hooks view size) (hprobe : ProbeKeeps hw view)
    (h : SaveFiles hw hooks image view size s) :
    ∃ i t,cartOpen savePath (clpOpenWrite ||| clpOpenTruncate) s=((0,i.val+1),t) ∧
      Writing hw hooks image view size i 0 t ∧ seen view t.world=seen view s.world := by
  obtain ⟨erase,herase,-⟩ := hworks.erase
  obtain ⟨write,hwrite,-⟩ := hworks.write
  have hwriter : hasSaveWriter hooks .flash=true := by
    unfold hasSaveWriter
    rw [herase,hwrite]
    rfl
  obtain ⟨hret,hcan,hdev⟩ := @returned_spec σ _ (-1,clearInfo) _ _ _
    (@wp_gbaInfo σ hw hooks image s.world h.romBase h.romSize)
  rw [h.standing.configured.linear,h.standing.configured.type_eq,hwriter,Bool.and_true] at hcan
  obtain ⟨reply,hreply⟩ : ∃ reply,
      returned (-1,clearInfo) (gbaInfo hw hooks image) s.world=reply := ⟨_,rfl⟩
  rw [hreply] at hret hcan hdev
  obtain ⟨hstanding,hseen⟩ := standing_probed hprobe h.standing
  rw [← hdev] at hstanding hseen
  have hinfo : ensureInfo s=((reply.1.1,some reply.1.2),{s with world := reply.2}) := by
    unfold ensureInfo
    rw [h.driver]
    change ((_,some _),_)=_
    rw [hreply]
  have hctx : reply.2.ctx=s.world.ctx := by rw [hdev]
  obtain ⟨i,hi⟩ := @freeCartSlot_some σ {s with world := reply.2} h.free
  have hrefused : openRefused .save (clpOpenWrite ||| clpOpenTruncate) reply.1.2=none := by
    unfold openRefused
    rw [if_neg (by rintro ⟨h,-⟩; cases h),if_neg (by rintro ⟨-,h,-⟩; exact h (by decide)),
      if_neg (by rintro ⟨-,-,h⟩; rw [hcan] at h; cases h)]
  refine ⟨i,({s with world := reply.2} : CartFiles (Cart σ)).setSlot i
    ⟨.save,clpOpenWrite ||| clpOpenTruncate,0,0,false,false,true⟩,?_,
    ⟨?_,hstanding,?_,?_,?_,Nat.zero_le _⟩,hseen⟩
  · unfold cartOpen
    have hkind : kindFromPath savePath=some .save := by decide
    rw [hkind]
    dsimp only
    rw [if_neg (by rintro ⟨-,h⟩; cases h),hinfo]
    dsimp only
    rw [if_neg (by omega),hrefused]
    dsimp only
    rw [hi]
  · exact h.driver
  · exact hctx ▸ h.romBase
  · exact hctx ▸ h.romSize
  · exact ⟨false,Function.update_self _ _ _⟩

end Opening

section Writes

variable {hw : CartHardware σ} {hooks : SaveHooks σ} {image : Bool → Cart σ → InfoBytes}
  {view : FlashView σ} {size : ℕ} {s : CartFiles (Cart σ)} {i : Fin clCartMaxHandles} {n : ℕ}

theorem Writing.local (h : Writing hw hooks image view size i n s) :
    slotFromLocal s (i.val+1)=some i := by
  obtain ⟨flushed,hslot⟩ := h.slot
  have hopen : (s.slots i).isOpen=true := by rw [hslot]
  unfold slotFromLocal
  rw [dif_pos ⟨Nat.succ_pos _,i.isLt⟩]
  exact if_pos hopen

/-- The save stands behind a write, and the slot has an offset. -/
theorem Writing.behind (h : Writing hw hooks image view size i n s) (t : CartFiles (Cart σ))
    (hback : Back view s.world t.world) (hdriver : t.driver=s.driver) {k : ℕ}
    (hk : n+k≤ size)
    (hslot : ∃ flushed,t.slots i=
      ⟨.save,clpOpenWrite ||| clpOpenTruncate,UInt64.ofNat (n+k),0,flushed,false,true⟩) :
    Writing hw hooks image view size i (n+k) t := by
  have hctx := hback.ctx
  unfold SameButMask at hctx
  refine ⟨hdriver.trans h.driver,standing_of_back h.standing hback,?_,?_,hslot,hk⟩
  · rw [hctx]
    exact h.romBase
  · rw [hctx]
    exact h.romSize

/-- An offset and a count. -/
theorem offset_add {k : ℕ} (hn : n<2^64) (hk : k<2^32) :
    UInt64.ofNat n+(UInt32.ofNat k).toUInt64=UInt64.ofNat (n+k) := by
  have hcount : (UInt32.ofNat k).toUInt64.toNat=k := by
    rw [UInt32.toNat_toUInt64,UInt32.toNat_ofNat_of_lt' hk]
  apply UInt64.toNat_inj.mp
  rw [UInt64.toNat_add,hcount,UInt64.toNat_ofNat_of_lt' hn,UInt64.toNat_ofNat']

/-- A write through the slot comes to the driver at the offset. If it succeeds, the offset
goes on behind it. -/
theorem cartWrite_save (hworks : FlashWorks hw hooks view size) (hsize : IsFlashSize size)
    (h : Writing hw hooks image view size i n s) (piece : List UInt8) :
    ∃ reply t,cartWrite (i.val+1) piece s=(reply,t) ∧
      ((reply=((0 : ℤ),UInt32.ofNat (piece.take (size-n)).length) ∧
        Accepts flashByte (seen view s.world) n (piece.take (size-n)) ∧
        seen view t.world=putFlash (seen view s.world) n (piece.take (size-n)) ∧
        Writing hw hooks image view size i (n+(piece.take (size-n)).length) t) ∨
      (reply.1<0 ∧ Writing hw hooks image view size i n t ∧
        ((¬Permitted s.world n ∧ seen view t.world=seen view s.world) ∨
          FlashEndedAt (seen view s.world) n (piece.take (size-n)) (seen view t.world)))) := by
  have hmax := hsize.le
  unfold clCartGbaMaxLinearSaveSize at hmax
  have hinside := h.inside
  have hlength : n+(piece.take (size-n)).length≤ size := by
    rw [List.length_take]
    omega
  obtain ⟨flushed,hslot⟩ := h.slot
  have hoffset : (UInt64.ofNat n).toNat=n := UInt64.toNat_ofNat_of_lt' (by change _<2^64; omega)
  obtain ⟨reply,hreply⟩ : ∃ reply,
      returned (-1,0) (gbaWrite hw hooks .save n piece) s.world=reply := ⟨_,rfl⟩
  have hwrite := @returned_spec σ _ (-1,0) _ _ _
    (wp_gbaWrite hworks hsize h.standing n piece)
  rw [hreply] at hwrite
  obtain ⟨hback,hcases⟩ := hwrite
  have hrun : cartWrite (i.val+1) piece s=((reply.1.1,UInt32.ofNat reply.1.2),
      finishCart i reply.1.1 (UInt32.ofNat reply.1.2) true {s with world := reply.2}) := by
    have hops : s.driver.write=(gbaDriver hw hooks image).write := by rw [h.driver]
    unfold cartWrite
    rw [h.local]
    dsimp only
    rw [hslot]
    dsimp only
    rw [if_neg (by decide),if_neg Bool.false_ne_true,hops]
    dsimp only [gbaDriver]
    rw [hoffset,hreply]
  refine ⟨_,_,hrun,?_⟩
  rcases hcases with ⟨hok,haccepts,hseen⟩ | ⟨hneg,hfailed⟩
  · left
    have hfinish : finishCart i 0 (UInt32.ofNat (piece.take (size-n)).length) true
        {s with world := reply.2}=({s with world := reply.2} : CartFiles (Cart σ)).setSlot i
          ⟨.save,clpOpenWrite ||| clpOpenTruncate,UInt64.ofNat (n+(piece.take (size-n)).length),
            0,flushed && !decide (UInt32.ofNat (piece.take (size-n)).length≠0),false,true⟩ := by
      unfold finishCart
      rw [if_pos rfl]
      dsimp only
      rw [hslot]
      dsimp only
      rw [offset_add (by omega) (by omega),Bool.true_and]
    rw [hok]
    dsimp only
    rw [hfinish]
    refine ⟨rfl,haccepts,hseen,h.behind _ ?_ ?_ hlength ?_⟩
    · exact hback
    · rfl
    · exact ⟨_,Function.update_self _ _ _⟩
  · right
    have hfinish : finishCart i reply.1.1 (UInt32.ofNat reply.1.2) true
        {s with world := reply.2}={s with world := reply.2} := by
      unfold finishCart
      rw [if_neg (by omega)]
    rw [hfinish]
    exact ⟨hneg,@Writing.behind σ hw hooks image view size s i n h {s with world := reply.2}
      hback rfl 0 h.inside ⟨flushed,hslot⟩,hfailed⟩

/-- Closing the file changes nothing of the save. -/
theorem cartClose_save (h : Writing hw hooks image view size i n s) :
    SaveFiles hw hooks image view size (cartClose (i.val+1) s).2 ∧
      (cartClose (i.val+1) s).2.world=s.world := by
  obtain ⟨flushed,hslot⟩ := h.slot
  have hwindow : closeWindow i s=s := by
    unfold closeWindow
    rw [hslot]
  have hflush : (closeFlush i s).2.world=s.world ∧ (closeFlush i s).2.driver=s.driver := by
    have hops : s.driver.flush=(gbaDriver hw hooks image).flush := by rw [h.driver]
    unfold closeFlush
    rw [hops]
    dsimp only [gbaDriver]
    rw [hslot]
    dsimp only
    split
    · exact ⟨rfl,rfl⟩
    · exact ⟨rfl,rfl⟩
  have hclosed : (cartClose (i.val+1) s).2=(closeFlush i s).2.setSlot i
      {(closeFlush i s).2.slots i with isOpen := false} := by
    unfold cartClose
    rw [h.local]
    dsimp only
    rw [hwindow]
  have hworld : (cartClose (i.val+1) s).2.world=s.world := by
    rw [hclosed]
    exact hflush.1
  refine ⟨⟨?_,?_,?_,?_,⟨i,?_⟩⟩,hworld⟩
  · rw [hclosed]
    exact hflush.2.trans h.driver
  · rw [hworld]
    exact h.standing
  · rw [hworld]
    exact h.romBase
  · rw [hworld]
    exact h.romSize
  · rw [hclosed]
    unfold CartFiles.setSlot
    dsimp only
    rw [Function.update_self]

/-- A write adds to the operations. -/
theorem putFlash_grows {m : Marked UInt8} (hwhole : Whole sectors m) (offset : ℕ)
    (src : List UInt8) : ∃ more,(putFlash m offset src).ops=m.ops++more := by
  obtain ⟨more,hmore,-⟩ := @putAll_ops UInt8 sectors flashByte idleByte m offset src hwhole
  exact ⟨more,hmore⟩

theorem cartWrite_grows (hworks : FlashWorks hw hooks view size) (hsize : IsFlashSize size)
    (h : Writing hw hooks image view size i n s) (piece : List UInt8) :
    (∃ n',Writing hw hooks image view size i n' (cartWrite (i.val+1) piece s).2) ∧
      ∃ more,view.ops (cartWrite (i.val+1) piece s).2.world.dev=
        view.ops s.world.dev++more := by
  have hwhole := whole_seen view s.world
  obtain ⟨reply,t,hrun,hcases⟩ := cartWrite_save hworks hsize h piece
  rw [hrun]
  rcases hcases with ⟨-,-,hseen,hwriting⟩ | ⟨-,hwriting,⟨-,hsame⟩ | ⟨k,-,-,hended⟩⟩
  · obtain ⟨more,hmore⟩ := putFlash_grows hwhole n (piece.take (size-n))
    exact ⟨⟨_,hwriting⟩,more,(congrArg Marked.ops hseen).trans hmore⟩
  · exact ⟨⟨_,hwriting⟩,[],(congrArg Marked.ops hsame).trans (List.append_nil _).symm⟩
  · obtain ⟨more,hmore⟩ := putFlash_grows hwhole n ((piece.take (size-n)).take (k+1))
    exact ⟨⟨_,hwriting⟩,more,(congrArg Marked.ops hended).trans hmore⟩

/-- Whatever is written, the file stays open and the operations are only added to. -/
theorem writeImage_grows (hworks : FlashWorks hw hooks view size) (hsize : IsFlashSize size)
    (giveUp : Bool) (pieces : List (List UInt8))
    (h : Writing hw hooks image view size i n s) :
    (∃ n',Writing hw hooks image view size i n'
        (writeImage giveUp (i.val+1) pieces s).2) ∧
      ∃ more,view.ops (writeImage giveUp (i.val+1) pieces s).2.world.dev=
        view.ops s.world.dev++more := by
  induction pieces generalizing s n with
  | nil => exact ⟨⟨n,h⟩,[],(List.append_nil _).symm⟩
  | cons piece pieces ih =>
    obtain ⟨⟨n',hnext⟩,more,hmore⟩ := cartWrite_grows hworks hsize h piece
    unfold writeImage
    dsimp only
    split
    · exact ⟨⟨n',hnext⟩,more,hmore⟩
    · obtain ⟨hlast,others,hothers⟩ := ih hnext
      refine ⟨hlast,more++others,?_⟩
      rw [hothers,hmore,List.append_assoc]

/-- The image up to a piece, clipped, and the rest of it. -/
theorem take_split (before piece rest : List UInt8) (size : ℕ) :
    (before++piece).take size=
        before.take size++piece.take (size-(before.take size).length) ∧
      (before++(piece++rest)).take size=
        before.take size++piece.take (size-(before.take size).length)++
          rest.take (size-before.length-piece.length) := by
  have hroom : size-(before.take size).length=size-before.length := by
    rw [List.length_take]
    omega
  rw [hroom]
  exact ⟨List.take_append,by rw [List.take_append,List.take_append,List.append_assoc]⟩

/-- Pieces that are written behind others: each is there, or a byte of the image is not
taken. -/
theorem writeImage_save (hworks : FlashWorks hw hooks view size) (hsize : IsFlashSize size)
    {m : Marked UInt8} (hwhole : Whole sectors m) (giveUp : Bool)
    (pieces : List (List UInt8)) (before : List UInt8)
    (h : Writing hw hooks image view size i (before.take size).length s)
    (hbefore : Accepts flashByte m 0 (before.take size))
    (hseen : seen view s.world=putFlash m 0 (before.take size)) :
    (Accepts flashByte m 0 ((before++pieces.flatten).take size) ∧
      seen view (writeImage giveUp (i.val+1) pieces s).2.world=
        putFlash m 0 ((before++pieces.flatten).take size) ∧
      ((before++pieces.flatten).length≤ size →
        (writeImage giveUp (i.val+1) pieces s).1=allPieces pieces)) ∨
    ((∃ reply∈(writeImage giveUp (i.val+1) pieces s).1,reply.1<0) ∧
      ∃ k<((before++pieces.flatten).take size).length,
        ¬Accepts flashByte m 0 (((before++pieces.flatten).take size).take (k+1)) ∧
        ∃ more,view.ops (writeImage giveUp (i.val+1) pieces s).2.world.dev=
          (putFlash m 0 (((before++pieces.flatten).take size).take (k+1))).ops++more) := by
  induction pieces generalizing before s with
  | nil =>
    rw [List.flatten_nil,List.append_nil]
    exact Or.inl ⟨hbefore,hseen,fun _ => rfl⟩
  | cons piece pieces ih =>
    obtain ⟨hfront,hwholeImage⟩ := take_split before piece pieces.flatten size
    obtain ⟨done,hdone⟩ : ∃ done,done=before.take size := ⟨_,rfl⟩
    rw [← hdone] at h hbefore hseen hfront hwholeImage
    obtain ⟨data,hdata⟩ : ∃ data,data=piece.take (size-done.length) := ⟨_,rfl⟩
    rw [← hdata] at hfront hwholeImage
    have hsplit := @accepts_append UInt8 sectors flashByte m 0 idleByte hwhole done data
    have hboth := @putAll_append UInt8 sectors flashByte idleByte m 0 done data
    rw [Nat.zero_add] at hsplit hboth
    obtain ⟨reply,t,hrun,hcases⟩ := cartWrite_save hworks hsize h piece
    rw [← hdata,hseen] at hcases
    have hpermitted := permitted_behind hsize hwhole h.inside hseen
    rw [List.flatten_cons]
    unfold writeImage
    dsimp only
    rw [hrun]
    rcases hcases with ⟨rfl,haccepts,hnow,hnext⟩ | ⟨hneg,hnext,hfailed⟩
    · have hgoOn : ¬(giveUp=true ∧ ((0 : ℤ),UInt32.ofNat data.length).1<0) :=
        fun hstop => Int.lt_irrefl 0 hstop.2
      rw [if_neg hgoOn]
      have hlength : done.length+data.length=((before++piece).take size).length := by
        rw [hfront,List.length_append]
      rw [hlength] at hnext
      have hmore := ih (before++piece) hnext (by rw [hfront]; exact hsplit.mpr ⟨hbefore,haccepts⟩)
        (by rw [hfront]; exact hnow.trans hboth.symm)
      rw [List.append_assoc] at hmore
      rcases hmore with ⟨hall,hlast,hreplies⟩ | ⟨⟨bad,hbad,hbadNeg⟩,k,hk,hno,hops⟩
      · refine Or.inl ⟨hall,hlast,fun hfits => ?_⟩
        have hpiece : data=piece := by
          rw [hdata]
          refine List.take_of_length_le ?_
          rw [List.length_append,List.length_append] at hfits
          rw [hdone,List.length_take]
          omega
        rw [hreplies hfits,hpiece]
        rfl
      · exact Or.inr ⟨⟨bad,List.mem_cons_of_mem _ hbad,hbadNeg⟩,k,hk,hno,hops⟩
    · have hended : FlashEndedAt m 0 ((before++(piece++pieces.flatten)).take size)
          (seen view t.world) := by
        rcases hfailed with ⟨hno,-⟩ | hended
        · exact absurd hpermitted hno
        · rw [hwholeImage]
          have hat : done.length=0+done.length := (Nat.zero_add _).symm
          rw [hat] at hended
          exact hended.behind hwhole _
      obtain ⟨k,hk,hno,hnow⟩ := hended
      right
      split
      · refine ⟨⟨reply,List.mem_singleton.mpr rfl,hneg⟩,k,hk,hno,[],?_⟩
        rw [List.append_nil]
        exact congrArg Marked.ops hnow
      · obtain ⟨-,more,hmore⟩ := writeImage_grows hworks hsize giveUp pieces hnext
        refine ⟨⟨reply,List.mem_cons_self,hneg⟩,k,hk,hno,more,?_⟩
        have hops : view.ops t.world.dev=_ := congrArg Marked.ops hnow
        rw [← hops]
        exact hmore

end Writes

section Outcomes

variable {hw : CartHardware σ} {hooks : SaveHooks σ} {image : Bool → Cart σ → InfoBytes}
  {view : FlashView σ} {size : ℕ} {s : CartFiles (Cart σ)}

/-- What a session comes to: its image is there, or one of its writes has failed at a byte
that was not taken. -/
theorem session_save (hworks : FlashWorks hw hooks view size) (hprobe : ProbeKeeps hw view)
    (hsize : IsFlashSize size) (h : SaveFiles hw hooks image view size s)
    (pieces : List (List UInt8)) (giveUp : Bool) :
    SaveFiles hw hooks image view size (session pieces giveUp s).2 ∧
      ∃ replies,(session pieces giveUp s).1=some replies ∧
      ((Accepts flashByte (seen view s.world) 0 (imageOf size pieces) ∧
        seen view (session pieces giveUp s).2.world=
          putFlash (seen view s.world) 0 (imageOf size pieces) ∧
        (pieces.flatten.length≤ size → replies=allPieces pieces)) ∨
      ((∃ reply∈replies,reply.1<0) ∧ ∃ k<(imageOf size pieces).length,
        ¬Accepts flashByte (seen view s.world) 0 ((imageOf size pieces).take (k+1)) ∧
        ∃ more,view.ops (session pieces giveUp s).2.world.dev=
          (putFlash (seen view s.world) 0 ((imageOf size pieces).take (k+1))).ops++more)) := by
  obtain ⟨i,t,hopen,hwriting,hseen⟩ := cartOpen_save hworks hprobe h
  obtain ⟨⟨n,hlast⟩,-⟩ := writeImage_grows hworks hsize giveUp pieces hwriting
  obtain ⟨hclosed,hworld⟩ := cartClose_save hlast
  have hrun : session pieces giveUp s=
      (some (writeImage giveUp (i.val+1) pieces t).1,
        (cartClose (i.val+1) (writeImage giveUp (i.val+1) pieces t).2).2) := by
    unfold session
    dsimp only
    rw [hopen,if_neg (Int.lt_irrefl 0)]
  have hnone : ([] : List UInt8).take size=[] := List.take_nil
  have hwrite := writeImage_save hworks hsize (whole_seen view s.world) giveUp pieces []
    (by rw [hnone]; exact hwriting) (by rw [hnone]; trivial) (by rw [hnone]; exact hseen)
  rw [hrun]
  dsimp only
  rw [hworld]
  exact ⟨hclosed,_,rfl,hwrite⟩

/-- An image is taken exactly if it sets no bit that is clear in a marked sector. -/
theorem accepts_marked (data : List UInt8) :
    Accepts flashByte (seen view s.world) 0 data ↔
      ∀ i v,data[i]?=some v → Marks s i → view.cells s.world.dev i &&& v=v := by
  rw [accepts_iff]
  constructor
  · intro h i v hv hmark
    obtain ⟨hi,hget⟩ := List.getElem?_eq_some_iff.mp hv
    have hbyte := h i hi
    have hready : ready flashByte (seen view s.world) (0+i)=view.cells s.world.dev i := by
      rw [Nat.zero_add]
      exact if_pos hmark
    rw [hready,List.get_eq_getElem,hget] at hbyte
    exact hbyte
  · intro h i hi
    rw [Nat.zero_add]
    unfold ready
    split
    next hmark => exact h i _ (List.getElem?_eq_getElem hi) hmark
    · exact flashByte.combine_blank _

/-- A part of an image that is taken is taken. -/
theorem accepts_take {m : Marked UInt8} (hwhole : Whole sectors m) {data : List UInt8}
    (h : Accepts flashByte m 0 data) (n : ℕ) : Accepts flashByte m 0 (data.take n) := by
  rw [← List.take_append_drop n data,accepts_append idleByte hwhole] at h
  exact h.1

/-- A session that writes a full image restores it exactly if it is taken. -/
theorem restored_iff (hworks : FlashWorks hw hooks view size) (hprobe : ProbeKeeps hw view)
    (hsize : IsFlashSize size) (h : SaveFiles hw hooks image view size s)
    (action : SaveAction) :
    Restored view size s action ↔ MarkedTaken view size s action := by
  cases action with
  | configure saveBase => exact Iff.rfl
  | session pieces giveUp =>
    obtain ⟨-,replies,hreplies,hcases⟩ := session_save hworks hprobe hsize h pieces giveUp
    refine forall_congr' fun hlength => ?_
    rw [← accepts_marked,hreplies,Option.some.injEq]
    have himage : imageOf size pieces=pieces.flatten := List.take_of_length_le hlength.le
    have hwhole := whole_seen view s.world
    constructor
    · rintro ⟨rfl,-⟩
      rcases hcases with ⟨haccepts,-⟩ | ⟨⟨reply,hmem,hneg⟩,-⟩
      · exact haccepts
      · obtain ⟨piece,-,rfl⟩ := List.mem_map.mp hmem
        exact absurd hneg (Int.lt_irrefl 0)
    · intro haccepts
      rcases hcases with ⟨-,hseen,hall⟩ | ⟨-,k,-,hno,-⟩
      · refine ⟨hall hlength.le,?_⟩
        have hcells : view.cells (session pieces giveUp s).2.world.dev=
            (putFlash (seen view s.world) 0 (imageOf size pieces)).cells :=
          congrArg Marked.cells hseen
        rw [himage] at hcells haccepts
        rw [← hlength,hcells]
        exact cellsAt_eq (putAll_taken hwhole haccepts)
      · exact absurd (accepts_take hwhole haccepts (k+1)) hno

/-- A byte that is not blank, or is to be another one, is programmed in a marked sector
before anything is erased there. -/
theorem programmed_first {data : List UInt8} {i : ℕ} {v : UInt8} (hv : data[i]?=some v)
    (hmark : Marks s i) (hbusy : ¬(view.cells s.world.dev i=0xff ∧ v=0xff))
    {done more : List (MemoryOp UInt8)}
    (hdone : (putFlash (seen view s.world) 0 data).ops++more=view.ops s.world.dev++done) :
    ∃ first rest,done.filter (MemoryOp.touches sectors
        (i/clCartGbaFlashSectorSize*clCartGbaFlashSectorSize))=first::rest ∧
      first.programs=true := by
  obtain ⟨hi,hget⟩ := List.getElem?_eq_some_iff.mp hv
  obtain ⟨written,hwritten,hblocks⟩ :=
    @putAll_ops UInt8 sectors flashByte idleByte (seen view s.world) 0 data
      (whole_seen view s.world)
  have hsame : done=written++more := by
    have hops : (seen view s.world).ops=view.ops s.world.dev := rfl
    rw [hwritten,hops,List.append_assoc] at hdone
    exact (List.append_cancel_left hdone).symm
  obtain ⟨programs,hworked⟩ := hblocks (sectors.start i) (sectors.start_start i)
  have hmarked : (seen view s.world).marks (sectors.start i)=true :=
    (whole_seen view s.world (sectors.start i) i (sectors.start_start i)).trans hmark
  have hready : ready flashByte (seen view s.world) (0+i)=view.cells s.world.dev i := by
    rw [Nat.zero_add]
    exact if_pos hmark
  have hsome : programs≠[] := fun hnone => by
    have hidle := hworked.none.mp hnone i hi (by rw [Nat.zero_add])
    rw [hready,List.get_eq_getElem,hget] at hidle
    unfold idleByte at hidle
    rw [Bool.and_eq_true,decide_eq_true_iff,decide_eq_true_iff] at hidle
    exact hbusy ⟨hidle.2,hidle.1⟩
  obtain ⟨first,rest,hprograms⟩ := List.exists_cons_of_ne_nil hsome
  refine ⟨first,rest++more.filter (MemoryOp.touches sectors (sectors.start i)),?_,?_⟩
  · have hfilter := hworked.kept (Or.inl hmarked)
    change done.filter (MemoryOp.touches sectors (sectors.start i))=_
    rw [hsame,List.filter_append,hfilter,hprograms]
    rfl
  · exact hworked.onlyPrograms first (by rw [hprograms]; exact List.mem_cons_self)

/-- A session is right exactly if it finds blank bytes only where a sector is marked. -/
theorem repeatable_iff (hworks : FlashWorks hw hooks view size) (hprobe : ProbeKeeps hw view)
    (hsize : IsFlashSize size) (h : SaveFiles hw hooks image view size s)
    (action : SaveAction) :
    Restored view size s action ∧ ErasedFirst view s action ↔
      MarkedBlank view size s action := by
  rw [restored_iff hworks hprobe hsize h action]
  cases action with
  | configure saveBase => exact and_self_iff
  | session pieces giveUp =>
    obtain ⟨-,replies,hreplies,hcases⟩ := session_save hworks hprobe hsize h pieces giveUp
    have hwhole := whole_seen view s.world
    constructor
    · rintro ⟨-,done,hdone,hfirst⟩ i v hv hmark
      by_contra hbusy
      -- the operations of the session begin with those of a part of the image that has such a byte
      obtain ⟨data,j,w,more,hw,hmarkj,hbusyj,hops⟩ : ∃ data j w more,data[j]?=some w ∧
          Marks s j ∧ ¬(view.cells s.world.dev j=0xff ∧ w=0xff) ∧
          (putFlash (seen view s.world) 0 data).ops++more=
            view.ops (session pieces giveUp s).2.world.dev := by
        rcases hcases with ⟨-,hseen,-⟩ | ⟨-,k,-,hno,more,hops⟩
        · refine ⟨imageOf size pieces,i,v,[],hv,hmark,hbusy,?_⟩
          rw [List.append_nil]
          exact (congrArg Marked.ops hseen).symm
        · rw [accepts_marked] at hno
          simp only [not_forall,exists_prop] at hno
          obtain ⟨j,w,hw,hmarkj,hkeep⟩ := hno
          refine ⟨_,j,w,more,hw,hmarkj,fun hblank => hkeep ?_,hops.symm⟩
          rw [hblank.1,hblank.2]
          rfl
      obtain ⟨first,rest,hfilter,hprogram⟩ :=
        programmed_first hw hmarkj hbusyj (hops.trans hdone)
      exact Bool.false_ne_true ((hfirst _ first rest hfilter).symm.trans hprogram)
    · intro hblank
      have htaken : ∀ i v,(imageOf size pieces)[i]?=some v → Marks s i →
          view.cells s.world.dev i &&& v=v := fun i v hv hmark => by
        obtain ⟨hcell,rfl⟩ := hblank i v hv hmark
        rw [hcell]
        rfl
      refine ⟨fun _ => htaken,?_⟩
      have haccepts := (accepts_marked (imageOf size pieces)).mpr htaken
      rcases hcases with ⟨-,hseen,-⟩ | ⟨-,k,-,hno,-⟩
      · obtain ⟨done,hdone,hblocks⟩ :=
          @putAll_ops UInt8 sectors flashByte idleByte (seen view s.world) 0
            (imageOf size pieces) hwhole
        refine ⟨done,(congrArg Marked.ops hseen).trans hdone,fun sector first rest hfilter => ?_⟩
        have hblock : sectors.start (sector*clCartGbaFlashSectorSize)=
            sector*clCartGbaFlashSectorSize := by
          change sector*clCartGbaFlashSectorSize/clCartGbaFlashSectorSize*_=_
          rw [Nat.mul_div_cancel sector (by decide)]
        obtain ⟨programs,hworked⟩ := hblocks _ hblock
        cases hmark : (seen view s.world).marks (sector*clCartGbaFlashSectorSize) with
        | true =>
          -- nothing is programmed where all is blank
          have hnone : programs=[] := hworked.none.mpr fun k hk hin => by
            have hmarkk : Marks s k :=
              (hwhole k (sector*clCartGbaFlashSectorSize) (by
                rw [Nat.zero_add] at hin
                rw [hin,hblock])).trans hmark
            obtain ⟨hcell,hbyte⟩ := hblank k _ (List.getElem?_eq_getElem hk) hmarkk
            have hready : ready flashByte (seen view s.world) (0+k)=
                view.cells s.world.dev k := by
              rw [Nat.zero_add]
              exact if_pos hmarkk
            rw [hready,List.get_eq_getElem,hcell,hbyte]
            rfl
          rw [hworked.kept (Or.inl hmark),hnone] at hfilter
          cases hfilter
        | false =>
          by_cases hreach : ∃ k<(imageOf size pieces).length,
              sectors.start (0+k)=sector*clCartGbaFlashSectorSize
          · rw [hworked.erased hmark hreach] at hfilter
            rw [← (List.cons.inj hfilter).1]
            rfl
          · have hnone : programs=[] :=
              hworked.none.mpr fun k hk hin => absurd ⟨k,hk,hin⟩ hreach
            rw [hworked.kept (Or.inr hreach),hnone] at hfilter
            cases hfilter
      · exact absurd (accepts_take hwhole haccepts (k+1)) hno

end Outcomes

section Runs

variable {hw : CartHardware σ} {hooks : SaveHooks σ} {image : Bool → Cart σ → InfoBytes}
  {view : FlashView σ} {size : ℕ} {s t : CartFiles (Cart σ)}

/-- Configuring the save leaves the ROM as it is. -/
theorem configure_rom (saveBase : ℕ) (ctx : CartCtx) :
    (clCartGbaConfigureSave .flash size saveBase ctx).2.romBase=ctx.romBase ∧
      (clCartGbaConfigureSave .flash size saveBase ctx).2.romSize=ctx.romSize := by
  unfold clCartGbaConfigureSave applySaveConfig
  split
  · exact ⟨rfl,rfl⟩
  · dsimp only
    split
    · exact ⟨rfl,rfl⟩
    · exact ⟨rfl,rfl⟩

/-- Every action leaves the files of the cartridge with a save that was configured. -/
theorem saveFiles_act (hworks : FlashWorks hw hooks view size) (hprobe : ProbeKeeps hw view)
    (hsize : IsFlashSize size) (h : SaveFiles hw hooks image view size s)
    {action : SaveAction} (ht : act size s action=some t) :
    SaveFiles hw hooks image view size t := by
  cases action with
  | session pieces giveUp =>
    cases ht
    exact (session_save hworks hprobe hsize h pieces giveUp).1
  | configure saveBase =>
    cases ht
    obtain ⟨hbase,hrom⟩ := @configure_rom size saveBase s.world.ctx
    refine ⟨h.driver,(standing_configure hsize h.romBase h.standing.bank h.standing.ready
      saveBase).1,?_,?_,h.free⟩
    · exact fun hzero => h.romBase (hbase.symm.trans hzero)
    · exact fun hzero => h.romSize (hrom.symm.trans hzero)

/-- In a run of sessions, every one restores its full image and erases each sector before
it programs it exactly if none finds anything but blank bytes where a sector is marked.
Every one restores its full image exactly if none has to set a bit there. -/
theorem restores_repeatable_iff (hw : CartHardware σ) (hooks : SaveHooks σ)
    (image : Bool → Cart σ → InfoBytes) (view : FlashView σ) (size : ℕ)
    (hsize : IsFlashSize size) (hworks : FlashWorks hw hooks view size)
    (hprobe : ProbeKeeps hw view) (start : CartFiles (Cart σ))
    (hstart : SaveFiles hw hooks image view size start)
    (trace : List (CartFiles (Cart σ)×SaveAction)) (last : CartFiles (Cart σ))
    (run : Run (act size) start trace last) :
    (EveryStep (fun s action => Restored view size s action ∧ ErasedFirst view s action)
        trace ↔ EveryStep (MarkedBlank view size) trace) ∧
      (EveryStep (Restored view size) trace ↔ EveryStep (MarkedTaken view size) trace) :=
  ⟨run.everyStep_iff hstart (fun _ _ _ hs _ ht => saveFiles_act hworks hprobe hsize hs ht)
      fun _ action _ hs _ => repeatable_iff hworks hprobe hsize hs action,
    run.everyStep_iff hstart (fun _ _ _ hs _ ht => saveFiles_act hworks hprobe hsize hs ht)
      fun _ action _ hs _ => restored_iff hworks hprobe hsize hs action⟩

end Runs

section Samples

/-- The files of the cartridge with the chip. -/
def flashFiles : CartFiles (Cart FlashChip) where
  driver := gbaDriver flashHardware flashHooks fun _ _ => 
    ⟨List.replicate clCartInfoBytes 0,clearInfo.image_length⟩
  slots _ := ⟨.info,0,0,0,false,false,false⟩
  world := {flashCart with ctx := {flashCart.ctx with romSize := 0x2000000}}

theorem probeKeeps_flash : ProbeKeeps flashHardware flashView :=
  ⟨fun _ => rfl,fun _ => rfl,fun _ => rfl,fun _ h => h⟩

theorem saveFiles_flash : SaveFiles flashHardware flashHooks (fun _ _ =>
    ⟨List.replicate clCartInfoBytes 0,List.length_replicate⟩) flashView clCartGbaSramBankSize
    flashFiles := by
  obtain ⟨⟨hsave8,hlinear,hsizeEq,htype⟩,hbank,hready⟩ := flashCart_standing
  refine ⟨rfl,⟨⟨hsave8,hlinear,hsizeEq,htype⟩,hbank,hready⟩,?_,?_,⟨⟨0,by decide⟩,rfl⟩⟩
  · decide
  · decide

/-- No sector of it is marked. -/
theorem not_marks_flash (i : ℕ) : ¬Marks flashFiles i := by
  have hmask : flashFiles.world.ctx.flashErasedSectorMask=0 := by decide
  unfold Marks
  rw [hmask]
  exact fun h => Bool.false_ne_true ((Nat.zero_testBit _).symm.trans h)

/-- The first session with it. -/
theorem restores_repeatable_iff_first :
    EveryStep (fun s action => Restored flashView clCartGbaSramBankSize s action ∧
      ErasedFirst flashView s action) [(flashFiles,.session plainImage true)] :=
  (restores_repeatable_iff flashHardware flashHooks _ flashView clCartGbaSramBankSize
    (Or.inl rfl) (flash_works _) probeKeeps_flash flashFiles saveFiles_flash _ _
    (Run.nil.snoc rfl)).1.mpr fun entry hentry => by
      rw [List.mem_singleton.mp hentry]
      exact fun i _ _ hmark => absurd hmark (not_marks_flash i)

/-- Another image in one piece. -/
def otherImage : List (List UInt8) := [List.replicate clCartGbaSramBankSize 0xa5]

theorem length_otherImage : otherImage.flatten.length=clCartGbaSramBankSize := by
  unfold otherImage
  rw [List.flatten_cons,List.flatten_nil,List.append_nil,List.length_replicate]

theorem head_image (v : UInt8) :
    (imageOf clCartGbaSramBankSize [List.replicate clCartGbaSramBankSize v])[0]?=some v := by
  unfold imageOf
  rw [List.flatten_cons,List.flatten_nil,List.append_nil,
    List.take_of_length_le (List.length_replicate).le,List.getElem?_replicate,
    if_pos (by decide)]

/-- A second session with another image does not restore it. -/
theorem second_restore_fails :
    ¬∀ trace last,Run (act clCartGbaSramBankSize) flashFiles trace last →
      EveryStep (fun s action => Restored flashView clCartGbaSramBankSize s action ∧
        ErasedFirst flashView s action) trace := by
  intro hall
  have hstart := saveFiles_flash
  have hclear := not_marks_flash
  -- nothing is evaluated on the cartridge
  generalize flashFiles=files at hall hstart hclear
  have hworks := flash_works clCartGbaSramBankSize
  have hsize : IsFlashSize clCartGbaSramBankSize := Or.inl rfl
  obtain ⟨hnext,replies,-,hcases⟩ :=
    session_save hworks probeKeeps_flash hsize hstart plainImage true
  have haccepts := (@accepts_marked FlashChip flashView files
    (imageOf clCartGbaSramBankSize plainImage)).mpr
    fun i v _ hmark => absurd hmark (hclear i)
  have hwhole := whole_seen flashView files.world
  rcases hcases with ⟨-,hseen,-⟩ | ⟨-,k,-,hno,-⟩
  · have hfirst : Run (act clCartGbaSramBankSize) files
        ([]++[(files,.session plainImage true)]) (session plainImage true files).2 :=
      Run.nil.snoc rfl
    obtain ⟨next,hnextEq⟩ : ∃ next,next=(session plainImage true files).2 := ⟨_,rfl⟩
    rw [← hnextEq] at hfirst hnext hseen
    have hsecond : Run (act clCartGbaSramBankSize) files
        ([]++[(files,.session plainImage true)]++[(next,.session otherImage true)])
        (session otherImage true next).2 := hfirst.snoc rfl
    have hrestored := (hall _ _ hsecond (next,.session otherImage true)
      (List.mem_append_right _ List.mem_cons_self)).1
    have hhead : (imageOf clCartGbaSramBankSize plainImage)[0]?=some 0x5a := head_image 0x5a
    generalize imageOf clCartGbaSramBankSize plainImage=data at haccepts hseen hhead
    obtain ⟨hpos,hget⟩ := List.getElem?_eq_some_iff.mp hhead
    have hmark : Marks next 0 := by
      have hmarks := congrArg (fun m => m.marks 0) hseen
      exact hmarks.trans ((putAll_marks hwhole).mpr (Or.inr ⟨0,hpos,by rw [Nat.zero_add]⟩))
    have hcell : flashView.cells next.world.dev 0=0x5a := by
      have hcells := congrArg (fun m => m.cells 0) hseen
      have htaken := @putAll_taken UInt8 sectors flashByte idleByte _ 0 data hwhole haccepts 0
        hpos
      rw [List.get_eq_getElem,hget] at htaken
      exact hcells.trans htaken
    have htaken := (restored_iff hworks probeKeeps_flash hsize hnext _).mp hrestored
      length_otherImage 0 0xa5 (head_image 0xa5) hmark
    rw [hcell] at htaken
    exact absurd htaken (by decide)
  · exact hno (accepts_take hwhole haccepts (k+1))

end Samples

end ChisLink.SaveSessions
