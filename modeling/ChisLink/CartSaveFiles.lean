import ChisLink.CartFile
import ChisLink.FlashSaveCalls

/-!
# The driver behind the files of a cartridge

The files of a cartridge work on the driver for cartridges of this console. A file of a
FLASH save that was opened for writing passes each of its writes on to the driver, at the
offset behind the last one that succeeded. Closing it changes nothing of the save.
-/

namespace ChisLink.CartSaveFiles

open CartFile CartSaveDriver CopyStream DriverPrograms ErasingWrites FileLayer FileOperations
open FlashSaveCalls FlashSaveWrites StorageClient WireProtocol

variable {σ α : Type}

section Driver

/-- What a program of the driver returns, and the cartridge behind it. None of them runs out
of fuel, so the other value is not used. -/
def returned (other : α) (p : Prog (Cart σ) α) (s : Cart σ) : α×Cart σ :=
  ((p s).1.getD other,(p s).2)

theorem returned_spec {other : α} {p : Prog (Cart σ) α} {Q : α → Cart σ → Prop}
    {s : Cart σ} (h : wp p Q (fun _ => False) s) :
    Q (returned other p s).1 (returned other p s).2 := by
  obtain ⟨a,t,hrun,hQ⟩ := wp_total h
  unfold returned
  rw [hrun]
  exact hQ

/-- The struct in memory. -/
def InfoBytes : Type := {bytes : List UInt8 // bytes.length=clCartInfoBytes}

/-- The struct before it is filled in. -/
def clearInfo : CartInfo :=
  ⟨false,false,false,List.replicate clCartInfoBytes 0,List.length_replicate⟩

variable (hw : CartHardware σ) (hooks : SaveHooks σ)

/-- Whether a save can be written, by its kind. -/
def hasSaveWriter : SaveType → Bool
  | .flash => hooks.eraseFlash.isSome && hooks.writeFlashByte.isSome
  | .eeprom => hooks.readEepromUnit.isSome && hooks.writeEepromUnit.isSome
  | .sram => true
  | _ => false

variable (image : Bool → Cart σ → InfoBytes)

/-- The function `gba_info`, with what else is in the struct as a parameter. -/
def gbaInfo : Prog (Cart σ) (ℤ×CartInfo) := do
  let ctx ← getCtx
  if ctx.romBase=0 ∨ ctx.romSize=0 then pure (-1,clearInfo)
  else do
    let canProgramRom ← onDevice hw.norProbe
    let bytes ← inspect (image canProgramRom)
    pure (0,⟨canProgramRom,ctx.saveLinear,
      ctx.saveLinear && hasSaveWriter hooks ctx.saveType,bytes.1,bytes.2⟩)

/-- A window of the ROM. -/
def romWindow (data : List UInt8) (h : data.length<2^32) : DirectWindow where
  data := data
  length := UInt32.ofNat data.length
  data_length := (UInt32.toNat_ofNat_of_lt' h).symm
  access := .rom16Le

/-- The function `gba_direct_read`. -/
def gbaDirectRead (kind : CartFileKind) (offset : ℕ) (maxLength : UInt32) :
    Prog (Cart σ) (ℤ×WindowReply) :=
  if 0xffffffff<offset then pure (-1,.null 0)
  else if maxLength=0 then pure (0,.null 0)
  else
    match kind with
    | .rom => do
      let ctx ← getCtx
      if ctx.romSize≤offset then pure (0,.null 0)
      else do
        let data ← romReadBytes hw offset (min (ctx.romSize-offset) maxLength.toNat)
        pure (0,if h : data.length<2^32 then .window (romWindow data h) else .null 0)
    | .save => pure (0,.null 0)
    | .info => pure (-2,.null 0)

/-- The table of the driver that `cl_cart_gba_install_driver` installs. -/
def gbaDriver : CartDriver (Cart σ) where
  info := some (returned (-1,clearInfo) (gbaInfo hw hooks image))
  read := some fun kind offset length s =>
    let reply := returned (-1,[]) (gbaRead hw hooks kind offset.toNat length.toNat) s
    (⟨reply.1.1,reply.1.2,UInt32.ofNat reply.1.2.length⟩,reply.2)
  directRead := some fun kind offset maxLength =>
    returned (-1,.null 0) (gbaDirectRead hw kind offset.toNat maxLength)
  releaseDirect := some fun _ s => (0,s)
  write := some fun kind offset src s =>
    let reply := returned (-1,0) (gbaWrite hw hooks kind offset.toNat src) s
    ((reply.1.1,UInt32.ofNat reply.1.2),reply.2)
  flush := some fun kind => returned (-1) (gbaFlush hw kind)
  setSize := some fun kind size => returned (-1) (gbaSetSize hw kind size.toNat)

end Driver

end ChisLink.CartSaveFiles
