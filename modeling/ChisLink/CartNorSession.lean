import ChisLink.CartNorProgramming

/-!
# Writing sessions

A session after a flush or an invalidation announces the size of an image or not,
writes it in consecutive chunks and flushes. If all of this succeeds, the flash holds
the image and each of its sectors was erased once, before anything was programmed
there, exactly if the chip was not still busy with an erase that the driver had
forgotten.
-/

namespace ChisLink.CartNorSession

open ErasableMemory DriverPrograms CartNorDriver NorFlashChip CartNorCommands CartNorProbe
open CartNorProgramming

variable {σ α : Type}

/-- Write consecutive chunks from an offset on, until one fails: whether all succeeded. -/
def writeChunks (bus : Bus σ) (fuel : ℕ) (offset : ℕ) :
    List (List UInt8) → Prog (Machine σ) Bool
  | [] => pure true
  | chunk::chunks => do
    let reply ← clCartNorWriteStream bus fuel offset chunk
    if reply.1≠0 then pure false
    else writeChunks bus fuel (offset+chunk.length) chunks

/-- Announce the size of an image, or not. -/
def announce (bus : Bus σ) (announced : Bool) (size : ℕ) : Prog (Machine σ) ℤ :=
  if announced then clCartNorSetWriteSize bus (UInt64.ofNat size) else pure 0

/-- Flush after the chunks: whether everything succeeded. -/
def finish (bus : Bus σ) (fuel : ℕ) (written : Bool) : Prog (Machine σ) Bool :=
  if written then do
    let ret ← clCartNorFlush bus fuel
    pure (ret=0)
  else pure false

/-- A session: whether all writes and the flush succeeded. The result of the announcement
is not looked at. -/
def programImage (bus : Bus σ) (fuel : ℕ) (announced : Bool) (chunks : List (List UInt8)) :
    Prog (Machine σ) Bool := do
  let _ ← announce bus announced chunks.flatten.length
  let written ← writeChunks bus fuel 0 chunks
  finish bus fuel written

/-- The variables after a flush or an invalidation. -/
structure Fresh (nor : NorState) : Prop where
  /-- No session. -/
  active : nor.writeActive=false
  /-- At the beginning. -/
  offset : nor.writeOffset=0
  /-- No announced size. -/
  expected : nor.writeExpectedSize=0
  /-- No background erase that the driver knows of. -/
  erasing : nor.preEraseActive=false
  /-- Nor its address. -/
  erased : nor.preErasedAddr=0

/-- Whenever the driver identifies the chip from here, it finds the chip that there is. -/
def Reports (cfg : ChipConfig) (c : NorChip) (nor : NorState) : Prop :=
  ∀ expected,After (clCartNorProbe (chipBus cfg)) c {nor with writeExpectedSize := expected}
    (fun reply _ nor' => 0≤ reply.1 → Describes cfg nor')

/-- The byte that the console reads at an address. -/
def flashByte (cfg : ChipConfig) (c : NorChip) (addr : ℕ) : UInt8 :=
  if addr%2=0 then (chipRead cfg (addr/2) c).1.toUInt8
  else ((chipRead cfg (addr/2) c).1 >>> 8).toUInt8

/-- The flash holds the image, and ones in the rest of its last sector; each sector of the
image was erased once, before any halfword of it was programmed; the other sectors were
left alone. -/
structure Programmed (cfg : ChipConfig) (c₀ c : NorChip) (image : List UInt8) : Prop where
  /-- What is read. -/
  reads : ∀ addr,cfg.geometry.sectorStart addr< image.length →
    flashByte cfg c addr=image.getD addr 0xff
  /-- What was done. -/
  erased : ∃ ops,c.ops=c₀.ops++ops ∧
    ∀ sector,cfg.geometry.blocks.start sector=sector →
      (2*sector< image.length → ErasedOnceFirst cfg.geometry.blocks ops sector) ∧
      (image.length≤2*sector → Untouched cfg.geometry.blocks ops sector)

/-- Between the calls: no part of a command is pending. Before the chip is identified it
may be in any mode that the identification leaves. -/
def Settled (cfg : ChipConfig) (c : NorChip) (nor : NorState) : Prop :=
  Resting cfg c ∧ (nor.probeValid=true → Calm cfg c)

variable {cfg : ChipConfig} {c c₀ : NorChip} {nor : NorState} {lost : ℕ}

/-- The low byte of a halfword of an image. -/
theorem low_loadLe16OrFf (src : List UInt8) (i : ℕ) :
    (loadLe16OrFf src i).toUInt8=src.getD i 0xff := by
  unfold loadLe16OrFf
  generalize src.getD i 0xff=low
  generalize src.getD (i+1) 0xff=high
  apply UInt8.toBitVec_inj.mp
  ext j hj
  simp

/-- Its high byte. -/
theorem high_loadLe16OrFf (src : List UInt8) (i : ℕ) :
    (loadLe16OrFf src i >>> 8).toUInt8=src.getD (i+1) 0xff := by
  unfold loadLe16OrFf
  generalize src.getD i 0xff=low
  generalize src.getD (i+1) 0xff=high
  apply UInt8.toBitVec_inj.mp
  ext j hj
  simp [show 8+j<16 by omega,show j<16 by omega,BitVec.getLsbD_eq_getElem hj]

/-- A chip that reads the array gives the bytes of its halfwords. -/
theorem flashByte_array (hbusy : c.busy=0) (hmode : c.mode=.array) (addr : ℕ) :
    flashByte cfg c addr=
      if addr%2=0 then (c.cells (addr/2)).toUInt8 else (c.cells (addr/2) >>> 8).toUInt8 := by
  have hread : (chipRead cfg (addr/2) c).1=c.cells (addr/2) := by
    simp [chipRead,hbusy,hmode]
  unfold flashByte
  rw [hread]

/-- The sector of an address is the block of its halfword. -/
theorem sectorStart_halfword (g : Geometry) (addr : ℕ) :
    2*g.blocks.start (addr/2)=g.sectorStart addr := by
  have heven := g.even_sectorStart addr
  have heven' := g.even_sectorStart (2*(addr/2))
  have hle := sectorStart_le g.regions (Nat.zero_le addr)
  change g.sectorStart addr≤addr at hle
  have hsame : g.sectorStart (2*(addr/2))=g.sectorStart addr :=
    sectorStart_eq g.regions (Nat.zero_le _) (by change g.sectorStart addr≤_; omega) (by omega)
  change 2*(g.sectorStart (2*(addr/2))/2)=_
  omega

/-- The operations of the canonical order program an image. -/
theorem programmed_of_performed {image : List UInt8} (hbusy : c.busy=0) (hmode : c.mode=.array)
    (h : Performed cfg c₀ c
      (imageOps cfg.geometry.blocks (imageWord image) ((image.length+1)/2))) :
    Programmed cfg c₀ c image := by
  obtain ⟨hops,hcells⟩ := h
  obtain ⟨hdone,hblank,-⟩ := replay_imageOps cfg.geometry.blocks norCell (imageWord image)
    c₀.cells ((image.length+1)/2)
  refine ⟨fun addr haddr => ?_,_,hops,fun sector hsector => ?_⟩
  · rw [flashByte_array hbusy hmode,hcells]
    have hstart := sectorStart_halfword cfg.geometry addr
    rcases Nat.lt_or_ge (addr/2) ((image.length+1)/2) with hin | hout
    · rw [hdone _ hin]
      unfold imageWord
      split
      next heven =>
        have haddr : 2*(addr/2)=addr := by omega
        rw [low_loadLe16OrFf,haddr]
      next hodd =>
        have haddr : 2*(addr/2)+1=addr := by omega
        rw [high_loadLe16OrFf,haddr]
    · have hnone : image.getD addr 0xff=0xff := by
        rw [List.getD_eq_getElem?_getD,List.getElem?_eq_none (by omega),Option.getD_none]
      rw [hblank _ hout (by omega),hnone]
      split <;> rfl
  · obtain ⟨hbefore,hafter⟩ := imageOps_touches cfg.geometry.blocks (imageWord image) hsector
      ((image.length+1)/2)
    exact ⟨fun hlt => hafter (by omega),fun hle => hbefore (by omega)⟩

/-- Without its first erase an image is not programmed. -/
theorem not_programmed_of_lost {image : List UInt8} (hne : image≠[])
    (h : Performed cfg c₀ c
      ((imageOps cfg.geometry.blocks (imageWord image) ((image.length+1)/2)).drop 1)) :
    ¬Programmed cfg c₀ c image := by
  rintro ⟨-,ops,hops,hsectors⟩
  have hpos : 0< image.length := List.length_pos_iff.mpr hne
  have heq : ops=(imageOps cfg.geometry.blocks (imageWord image)
      ((image.length+1)/2)).drop 1 :=
    List.append_cancel_left (hops.symm.trans h.1)
  have hzero : cfg.geometry.blocks.start 0=0 :=
    Nat.le_zero.mp (cfg.geometry.blocks.start_le 0)
  have hfirst := (hsectors 0 hzero).1 (by omega)
  rw [heq] at hfirst
  exact not_erasedOnceFirst_drop cfg.geometry.blocks (imageWord image) (by omega) hfirst

/-- How many operations get lost: the first one, if the chip is busy with an erase when
nothing needs to be identified. -/
def lostCount (c₀ : NorChip) (nor₀ : NorState) : ℕ :=
  if nor₀.probeValid=true ∧ 0<c₀.busy then 1 else 0

variable {nor₀ : NorState} {expected : ℕ}

/-- The identification of a session. -/
theorem after_identify (hset : Settled cfg c₀ nor₀) (hfresh : Fresh nor₀)
    (hreports : Reports cfg c₀ nor₀) (expected : ℕ) :
    After (clCartNorProbe (chipBus cfg)) c₀ {nor₀ with writeExpectedSize := expected}
      (fun reply c nor => nor.probeValid=true ∧ reply=(nor.probeStatus,nor.probeCache) ∧
        (0≤ reply.1 → nor.preEraseActive=false ∧
          Between cfg (lostCount c₀ nor₀) expected c₀ [] c nor)) := by
  refine ((after_clCartNorProbe hset.1 _).and (hreports expected)).mono ?_
  rintro reply c nor ⟨⟨hvalid,hreply,hsame,hops,hold,hnew⟩,hdescribes⟩
  refine ⟨hvalid,hreply,fun hok => ?_⟩
  have hd := hdescribes hok
  have hactive : nor.preEraseActive=false := hsame.erasing.trans hfresh.erasing
  refine ⟨hactive,hvalid,hd,hsame.expected,
    Or.inr ⟨hsame.active.trans hfresh.active,rfl⟩,?_⟩
  unfold lostCount
  cases hbefore : nor₀.probeValid with
  | true =>
    obtain ⟨rfl,-⟩ := hold hbefore
    refine .start rfl hactive (hset.2 hbefore) hops ?_
    rcases Nat.eq_zero_or_pos c.busy with hzero | hpos
    · simp [hzero]
    · simp [hpos,Nat.ne_of_gt hpos]
  | false =>
    obtain ⟨hbusy,harray⟩ := hnew hbefore hok hd.matched
    refine .start rfl hactive (Or.inl ⟨hbusy,Or.inl harray⟩) hops ?_
    simp [hbusy]

/-- How far a session is: not begun, begun with a chip that was not recognised, or on
the way. -/
inductive Phase (cfg : ChipConfig) (c₀ : NorChip) (nor₀ : NorState) (expected : ℕ)
    (written : List UInt8) (c : NorChip) (nor : NorState) : Prop where
  /-- The chip was not touched. -/
  | untouched (hwritten : written=[]) (hchip : c=c₀)
    (hnor : nor={nor₀ with writeExpectedSize := expected})
  /-- The identification of an announced session failed. -/
  | refused (hwritten : written=[]) (hexpected : expected≠0) (hvalid : nor.probeValid=true)
    (hstatus : nor.probeStatus<0)
  /-- The chip is being written. -/
  | between (h : Between cfg (lostCount c₀ nor₀) expected c₀ written c nor)

/-- After the announcement. -/
theorem after_announce (hset : Settled cfg c₀ nor₀) (hfresh : Fresh nor₀)
    (hreports : Reports cfg c₀ nor₀) (announced : Bool) {size : ℕ}
    (hsize : size≤ regionsSize cfg.geometry.regions) :
    After (announce (chipBus cfg) announced size) c₀ nor₀ (fun _ c nor =>
      ∃ expected,(expected=0 ∨ expected=size) ∧ Phase cfg c₀ nor₀ expected [] c nor) := by
  have hlt := cfg.size_lt
  have hunset : nor₀={nor₀ with writeExpectedSize := 0} := by
    rw [← hfresh.expected]
  unfold announce
  split
  · have htoNat : (UInt64.ofNat size).toNat=size :=
      UInt64.toNat_ofNat_of_lt' (by unfold UInt64.size; omega)
    unfold clCartNorSetWriteSize
    rw [if_neg (by rw [UInt64.lt_iff_toNat_lt,htoNat]; change ¬4294967295<size; omega)]
    refine after_setNor ?_
    have hset' : ({nor₀ with
        writeExpectedSize := (UInt64.ofNat size).toNat
        writeActive := false
        writeOffset := 0
        preEraseActive := false
        preErasedAddr := 0} : NorState)={nor₀ with writeExpectedSize := size} := by
      simp [htoNat,hfresh.active,hfresh.offset,hfresh.erasing,hfresh.erased]
    rw [hset']
    by_cases hzero : UInt64.ofNat size=0
    · rw [if_pos hzero]
      have hnone : size=0 := by
        rw [← htoNat,hzero]
        rfl
      subst hnone
      exact after_pure ⟨0,Or.inl rfl,.untouched rfl rfl rfl⟩
    · rw [if_neg hzero]
      have hne : size≠0 := fun h => hzero (by rw [h]; rfl)
      refine (after_identify hset hfresh hreports size).bind ?_
      rintro reply c nor ⟨hvalid,rfl,hfound⟩
      dsimp only at hfound ⊢
      split
      next hfailed => exact after_pure ⟨size,Or.inr rfl,.refused rfl hne hvalid hfailed⟩
      next hok =>
        obtain ⟨hactive,hbetween⟩ := hfound (by omega)
        split
        · exact after_pure ⟨size,Or.inr rfl,.between hbetween⟩
        next hknown =>
          push Not at hknown
          split
          next hboundary =>
            have hd := hbetween.describes
            have hsector := (@Describes.boundary_iff cfg _ hd 0 rfl (by omega)).mp hboundary
            refine (after_startPreErase hd rfl hbetween.standing hactive hsector ?_).bind ?_
            · rw [hbetween.expected]
              exact Nat.pos_of_ne_zero hne
            · rintro _ c' nor' ⟨⟨active,addr,rfl⟩,hstanding⟩
              exact after_pure ⟨size,Or.inr rfl,.between ⟨hvalid,hd.withErase active addr,
                hbetween.expected,hbetween.place,hstanding⟩⟩
          · exact after_pure ⟨size,Or.inr rfl,.between hbetween⟩
  · exact after_pure ⟨0,Or.inl rfl,.untouched rfl rfl hunset⟩

/-- The chunks of a session, from a phase on. -/
theorem after_writeChunks (hset : Settled cfg c₀ nor₀) (hfresh : Fresh nor₀)
    (hreports : Reports cfg c₀ nor₀) (fuel : ℕ) (chunks : List (List UInt8))
    {written : List UInt8}
    (hsize : written.length+chunks.flatten.length≤ regionsSize cfg.geometry.regions)
    (hexpected : expected=0 ∨ written.length+chunks.flatten.length≤expected)
    (h : Phase cfg c₀ nor₀ expected written c nor) :
    After (writeChunks (chipBus cfg) fuel written.length chunks) c nor
      (fun ok c' nor' => ok=true →
        Phase cfg c₀ nor₀ expected (written++chunks.flatten) c' nor') := by
  induction chunks generalizing written c nor with
  | nil =>
    rw [List.flatten_nil,List.append_nil]
    exact after_pure fun _ => h
  | cons chunk chunks ih =>
    rw [List.flatten_cons] at hsize hexpected ⊢
    rw [List.length_append] at hsize hexpected
    have hlength : written.length+chunk.length=(written++chunk).length := by
      rw [List.length_append]
    rw [← List.append_assoc]
    -- what one chunk has to do
    suffices hchunk : After (clCartNorWriteStream (chipBus cfg) fuel written.length chunk) c nor
        (fun reply c' nor' => reply.1=0 →
          Phase cfg c₀ nor₀ expected (written++chunk) c' nor') by
      unfold writeChunks
      refine hchunk.bind ?_
      intro reply c' nor' hphase
      split
      · exact after_pure fun hok => absurd hok (by decide)
      next hok =>
        rw [hlength]
        exact ih (by rw [← hlength]; omega) (by rw [← hlength]; omega)
          (hphase (not_not.mp hok))
    by_cases hempty : chunk=[]
    · subst hempty
      rw [List.append_nil]
      unfold clCartNorWriteStream
      rw [if_pos List.length_nil]
      exact after_pure fun _ => h
    · rw [clCartNorWriteStream_eq hempty]
      cases h with
      | untouched hwritten hchip hnor =>
        subst hwritten hchip hnor
        refine (after_identify hset hfresh hreports expected).bind ?_
        rintro reply c' nor' ⟨hvalid,rfl,hfound⟩
        dsimp only at hfound
        by_cases hok : 0≤nor'.probeStatus
        · have hbetween := (hfound hok).2
          have hfits := hbetween.describes.size
          refine (after_streamBehindProbe chunk hbetween (by omega) (by omega) hempty
            fuel).mono ?_
          exact fun reply c'' nor'' hstream hzero => .between (hstream hzero).1
        · unfold streamBehindProbe
          rw [if_pos (by dsimp only; omega)]
          exact after_pure fun hzero => by dsimp only at hzero; omega
      | refused _ _ hvalid hstatus =>
        refine after_clCartNorProbe_valid hvalid ?_
        unfold streamBehindProbe
        rw [if_pos (by dsimp only; omega)]
        exact after_pure fun hzero => by dsimp only at hzero; omega
      | between hbetween =>
        have hfits := hbetween.describes.size
        refine after_clCartNorProbe_valid hbetween.valid ?_
        refine (after_streamBehindProbe chunk hbetween (by omega) (by omega) hempty
          fuel).mono ?_
        exact fun reply c' nor' hstream hzero => .between (hstream hzero).1

/-- The reset of a flush does no harm to a chip between two commands. -/
theorem after_clCartNorFlush_resting (hc : Resting cfg c) (hactive : nor.preEraseActive=false)
    (fuel : ℕ) :
    After (clCartNorFlush (chipBus cfg) fuel) c nor (fun _ c' _ => Performed cfg c c' []) := by
  unfold clCartNorFlush
  refine After.bind (P := fun _ c' nor' => c'=c ∧ nor'=nor) ?_ ?_
  · unfold flushPreErased
    refine after_getNor ?_
    rw [hactive,if_neg (by decide)]
    exact after_pure ⟨rfl,rfl⟩
  · rintro ret c nor ⟨rfl,rfl⟩
    refine After.bind (P := fun _ c' _ => Performed cfg c c' []) ?_ ?_
    · refine After.of_wp fun log => ?_
      have hstay := (undisturbed_unharmed cfg c True).stays_flashReset (I := fun _ => True)
        ⟨c,nor,log⟩ hc.unharmed trivial
      exact wp_mono hstay (fun _ _ h => h.1.performed) (fun _ _ => trivial)
    · exact fun _ c' nor' hops => after_setNor (after_pure hops)

/-- The flush at the end of an image. -/
theorem after_finish {image : List UInt8} (hset : Settled cfg c₀ nor₀) (hfresh : Fresh nor₀)
    (hexpected : expected=0 ∨ expected=image.length)
    (h : Phase cfg c₀ nor₀ expected image c nor) (fuel : ℕ) :
    After (clCartNorFlush (chipBus cfg) fuel) c nor (fun _ c' _ =>
      (image=[] ∧ Performed cfg c₀ c' []) ∨
      (image≠[] ∧ c'.busy=0 ∧ c'.mode=.array ∧ Did cfg (lostCount c₀ nor₀) c₀ c'
        (imageOps cfg.geometry.blocks (imageWord image) ((image.length+1)/2)))) := by
  cases h with
  | untouched hwritten hchip hnor =>
    subst hwritten hchip hnor
    have hflush := @after_clCartNorFlush_resting cfg c
      {nor₀ with writeExpectedSize := expected} hset.1 hfresh.erasing fuel
    exact hflush.mono fun _ _ _ hops => Or.inl ⟨rfl,hops⟩
  | refused hwritten hannounced =>
    subst hwritten
    rcases hexpected with h | h
    · exact absurd h hannounced
    · exact absurd h hannounced
  | between hbetween =>
    cases hbetween.standing with
    | start hp hactive hcalm hops =>
      have hempty : image=[] := List.length_eq_zero_iff.mp hp
      refine (after_clCartNorFlush_resting (resting_of_calm hcalm) hactive fuel).mono ?_
      exact fun _ _ _ hdone => Or.inl ⟨hempty,hops.trans hdone⟩
    | level hp hlost hactive hready hops =>
      have hne : image≠[] := List.length_pos_iff.mp hp
      unfold clCartNorFlush
      refine After.bind (P := fun _ c' nor' => c'=c ∧ nor'=nor) ?_ ?_
      · unfold flushPreErased
        refine after_getNor ?_
        rw [hactive,if_neg (by decide)]
        exact after_pure ⟨rfl,rfl⟩
      · rintro ret c nor ⟨rfl,rfl⟩
        refine (after_flashReset hbetween.describes.matched hready).bind ?_
        rintro _ c' nor' ⟨rfl,rfl⟩
        exact after_setNor (after_pure (Or.inr ⟨hne,hready.1,rfl,hops⟩))
    | ahead _ _ _ hannounced =>
      rw [hbetween.expected] at hannounced
      omega

/-- A session that succeeds has carried out the operations of the canonical order, of which
the first one may have got lost. -/
theorem after_programImage (hset : Settled cfg c₀ nor₀) (hfresh : Fresh nor₀)
    (hreports : Reports cfg c₀ nor₀) (announced : Bool) (chunks : List (List UInt8))
    (hsize : chunks.flatten.length≤ regionsSize cfg.geometry.regions) (fuel : ℕ) :
    After (programImage (chipBus cfg) fuel announced chunks) c₀ nor₀ (fun ok c' _ => ok=true →
      (chunks.flatten=[] ∧ Performed cfg c₀ c' []) ∨
      (chunks.flatten≠[] ∧ c'.busy=0 ∧ c'.mode=.array ∧ Did cfg (lostCount c₀ nor₀) c₀ c'
        (imageOps cfg.geometry.blocks (imageWord chunks.flatten)
          ((chunks.flatten.length+1)/2)))) := by
  unfold programImage
  refine (after_announce hset hfresh hreports announced hsize).bind ?_
  rintro _ c nor ⟨expected,hexpected,hphase⟩
  have hroom : ([] : List UInt8).length+chunks.flatten.length≤
      regionsSize cfg.geometry.regions := by
    rw [List.length_nil]
    omega
  have hshort : expected=0 ∨
      ([] : List UInt8).length+chunks.flatten.length≤expected := by
    rw [List.length_nil]
    omega
  have hwrite := after_writeChunks hset hfresh hreports fuel chunks hroom hshort hphase
  refine hwrite.bind ?_
  intro written c' nor' hwritten
  rw [List.nil_append] at hwritten
  unfold finish
  split
  next hok =>
    refine (after_finish hset hfresh hexpected (hwritten hok) fuel).bind ?_
    exact fun ret c'' nor'' hend => after_pure fun _ => hend
  · exact after_pure fun hok => absurd hok (by decide)

/-- A session whose writes and flush succeed programs the image, exactly if nothing was
written, the chip had to be identified, or it was not busy when the session began. -/
theorem programmed_iff (cfg : ChipConfig) (c : NorChip) (nor : NorState) (log : List BusEvent)
    (fuel : ℕ) (announced : Bool) (chunks : List (List UInt8))
    (hset : Settled cfg c nor) (hfresh : Fresh nor) (hreports : Reports cfg c nor)
    (hsize : chunks.flatten.length≤ regionsSize cfg.geometry.regions)
    (hrun : (programImage (chipBus cfg) fuel announced chunks ⟨c,nor,log⟩).1=some true) :
    Programmed cfg c (programImage (chipBus cfg) fuel announced chunks ⟨c,nor,log⟩).2.chip
        chunks.flatten ↔
      (chunks.flatten=[] ∨ nor.probeValid=false ∨ c.busy=0) := by
  have hafter := (after_programImage hset hfresh hreports announced chunks hsize fuel).wp log
  unfold wp at hafter
  rcases hresult : programImage (chipBus cfg) fuel announced chunks ⟨c,nor,log⟩ with ⟨ok,s⟩
  rw [hresult] at hafter hrun
  dsimp only at hrun
  subst hrun
  rcases hafter rfl with ⟨hempty,hops⟩ | ⟨hne,hbusy,hmode,hops⟩
  · refine ⟨fun _ => Or.inl hempty,fun _ => ?_⟩
    rw [hempty]
    refine ⟨fun addr haddr => absurd haddr (Nat.not_lt_zero _),[],hops.1,fun sector _ => ?_⟩
    exact ⟨fun hlt => absurd hlt (Nat.not_lt_zero _),fun _ => rfl⟩
  · unfold Did lostCount at hops
    by_cases hlost : nor.probeValid=true ∧ 0<c.busy
    · rw [if_pos hlost] at hops
      have hnot := not_programmed_of_lost hne hops
      refine ⟨fun h => absurd h hnot,?_⟩
      rintro (h | h | h)
      · exact absurd h hne
      · rw [hlost.1] at h
        exact absurd h (by decide)
      · omega
    · rw [if_neg hlost,List.drop_zero] at hops
      refine ⟨fun _ => ?_,fun _ => programmed_of_performed hbusy hmode hops⟩
      cases hvalid : nor.probeValid with
      | false => exact Or.inr (Or.inl rfl)
      | true => exact Or.inr (Or.inr (Nat.eq_zero_of_not_pos fun hpos => hlost ⟨hvalid,hpos⟩))

/-- What a small chip with the AMD command set answers: an identifier, and the tables of
512 bytes in two sectors. -/
def smallAnswer : ChipMode → ℕ → UInt16
  | .identifier, index => if index=0 then 1 else 0x2201
  | .query, 0x10 => 0x51
  | .query, 0x11 => 0x52
  | .query, 0x12 => 0x59
  | .query, 0x27 => 9
  | .query, 0x2c => 1
  | .query, 0x2d => 1
  | .query, 0x2f => 1
  | _, _ => 0

/-- A small chip without a write buffer, whose operations take three reads. -/
def smallChip : ChipConfig where
  intel := false
  swapped := false
  geometry := ⟨[(2,256)],by decide,by decide⟩
  size_lt := by decide
  bufferWords := 0
  bufferWords_le := by decide
  bufferCommand := 0xe8
  bufferCommand_eq := Or.inl rfl
  answer := smallAnswer
  delay := fun _ => 3

/-- The small chip, erased and ready. -/
def smallStart : NorChip := ⟨fun _ => 0xffff,.array,0,0,0,[]⟩

/-- What the driver finds out about it. -/
def smallProbe : NorProbe := ⟨0x12201,512,0,256,[⟨0,512,256⟩],true,false,false,false⟩

/-- A driver that has identified the small chip. -/
def smallNor : NorState := {initialNor with probeValid := true,probeCache := smallProbe}

theorem smallNor_describes (expected : ℕ) :
    Describes smallChip {smallNor with writeExpectedSize := expected} :=
  ⟨⟨rfl,rfl⟩,rfl,Or.inr ⟨Nat.one_lt_two,2,rfl⟩,Or.inl rfl⟩

/-- An image of three bytes on the small chip. -/
theorem programmed_iff_small :
    Programmed smallChip smallStart
        (programImage (chipBus smallChip) 9 true [[0x12,0x34],[0x56]]
          ⟨smallStart,smallNor,[]⟩).2.chip [0x12,0x34,0x56] ↔
      (([0x12,0x34,0x56] : List UInt8)=[] ∨ smallNor.probeValid=false ∨ smallStart.busy=0) := by
  refine programmed_iff smallChip smallStart smallNor [] 9 true [[0x12,0x34],[0x56]]
    ⟨Or.inl ⟨rfl,rfl⟩,fun _ => Or.inl ⟨rfl,Or.inl rfl⟩⟩ ⟨rfl,rfl,rfl,rfl,rfl⟩ ?_ (by decide)
    (by decide +kernel)
  intro expected
  have hnor := @after_clCartNorProbe smallChip smallStart
    (Or.inl ⟨rfl,rfl⟩) {smallNor with writeExpectedSize := expected}
  refine hnor.mono ?_
  rintro reply c nor ⟨-,-,-,-,hsame,-⟩ -
  obtain ⟨-,rfl⟩ := hsame rfl
  exact smallNor_describes expected

/-- A session that is given up: 258 bytes are announced and 256 written, so that the second
sector is being erased; then the announcement is withdrawn, and a flush follows. -/
def givenUp : Prog (Machine NorChip) ℤ := do
  let _ ← clCartNorSetWriteSize (chipBus smallChip) 258
  let _ ← clCartNorWriteStream (chipBus smallChip) 9 0 (0x80::List.replicate 255 0)
  let _ ← clCartNorSetWriteSize (chipBus smallChip) 0
  clCartNorFlush (chipBus smallChip) 9

/-- The next session after the flush succeeds, but its image is programmed over the old
contents: the erase of the first sector was sent to the busy chip. -/
theorem programmed_fails :
    let before := (givenUp ⟨smallStart,initialNor,[]⟩).2
    let session := programImage (chipBus smallChip) 9 false [[0x80,0xff]] before
    (givenUp ⟨smallStart,initialNor,[]⟩).1=some 0 ∧ before.nor.probeCache=smallProbe ∧
      session.1=some true ∧
      ¬Programmed smallChip before.chip session.2.chip [0x80,0xff] := by
  have hrun : (givenUp ⟨smallStart,initialNor,[]⟩).1=some 0 ∧
      (givenUp ⟨smallStart,initialNor,[]⟩).2.nor.probeCache=smallProbe ∧
      (programImage (chipBus smallChip) 9 false [[0x80,0xff]]
        (givenUp ⟨smallStart,initialNor,[]⟩).2).1=some true ∧
      flashByte smallChip (programImage (chipBus smallChip) 9 false [[0x80,0xff]]
        (givenUp ⟨smallStart,initialNor,[]⟩).2).2.chip 1≠0xff := by
    decide +kernel
  obtain ⟨hflushed,hcache,hok,hbyte⟩ := hrun
  refine ⟨hflushed,hcache,hok,fun hprogrammed => hbyte ?_⟩
  exact hprogrammed.reads 1 (by decide)

end ChisLink.CartNorSession
