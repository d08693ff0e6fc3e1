import ChisLink.CartSaveDriver
import ChisLink.CopyStream
import ChisLink.FileOperations

/-!
# Files of a cartridge

The cartridge is a backend of the file layer with three files. It keeps the handles and
calls the operations of a driver, each of which a driver may lack. A direct window of the
driver belongs to the handle it was taken through until it is given back.
-/

namespace ChisLink.CartFile

open CartSaveDriver (CartFileKind)
open CopyStream FileLayer FileOperations StorageClient WireProtocol

variable {D : Type}

/-- Number of handles. -/
def clCartMaxHandles : ℕ := 4

/-- Size of the struct `cl_cart_info_t`. -/
def clCartInfoBytes : ℕ := 68

/-- The struct `cl_cart_info_t`. -/
structure CartInfo where
  /-- The ROM can be programmed. -/
  canProgramRom : Bool
  /-- The save can be read. -/
  canReadSave : Bool
  /-- The save can be written. -/
  canWriteSave : Bool
  /-- The struct in memory. -/
  image : List UInt8
  /-- Its size. -/
  image_length : image.length=clCartInfoBytes

/-- The struct `cl_cart_driver_ops_t` over a state of the driver. -/
structure CartDriver (D : Type) where
  /-- Metadata. -/
  info : Option (D → (ℤ×CartInfo)×D)
  /-- Read from an offset. -/
  read : Option (CartFileKind → UInt64 → UInt32 → D → Transfer×D)
  /-- Take a direct window at an offset. -/
  directRead : Option (CartFileKind → UInt64 → UInt32 → D → (ℤ×WindowReply)×D)
  /-- Give a direct window back. -/
  releaseDirect : Option (CartFileKind → D → ℤ×D)
  /-- Write at an offset. -/
  write : Option (CartFileKind → UInt64 → List UInt8 → D → (ℤ×UInt32)×D)
  /-- Flush. -/
  flush : Option (CartFileKind → D → ℤ×D)
  /-- Set the size. -/
  setSize : Option (CartFileKind → UInt64 → D → ℤ×D)

/-- A driver that was cleared. -/
def noDriver : CartDriver D := ⟨none,none,none,none,none,none,none⟩

/-- The struct `cl_cart_file_slot_t`. -/
structure CartSlot where
  /-- The file. -/
  kind : CartFileKind
  /-- Flags of the open. -/
  flags : UInt32
  /-- Offset of the next transfer. -/
  offset : UInt64
  /-- Size that was set. -/
  targetSize : UInt64
  /-- Nothing was written since the last flush. -/
  flushed : Bool
  /-- A direct window is out. -/
  directActive : Bool
  /-- The slot is in use. -/
  isOpen : Bool

/-- The driver, the slots and the state of the driver. -/
structure CartFiles (D : Type) where
  /-- The variable `g_driver`. -/
  driver : CartDriver D
  /-- The variable `g_slots`. -/
  slots : Fin clCartMaxHandles → CartSlot
  /-- The state that the driver works on. -/
  world : D

/-- The bytes of a text. -/
def ascii (text : List Char) : List UInt8 := text.map fun ch => UInt8.ofNat ch.toNat

/-- The path of the ROM. -/
def clCartRomPath : List UInt8 := ascii
  ['/','d','e','v','/','c','a','r','t','/','r','o','m']

/-- The path of the save. -/
def clCartSavePath : List UInt8 := ascii
  ['/','d','e','v','/','c','a','r','t','/','s','a','v','e']

/-- The path of the metadata. -/
def clCartInfoPath : List UInt8 := ascii
  ['/','d','e','v','/','c','a','r','t','/','i','n','f','o']

/-- The function `kind_from_path`. -/
def kindFromPath (path : CString) : Option CartFileKind :=
  if path.1=clCartRomPath then some .rom
  else if path.1=clCartSavePath then some .save
  else if path.1=clCartInfoPath then some .info
  else none

/-- The function `slot_from_local`. -/
def slotFromLocal (s : CartFiles D) (l : ℕ) : Option (Fin clCartMaxHandles) :=
  if h : 0<l ∧ l≤ clCartMaxHandles then
    if (s.slots ⟨l-1,by omega⟩).isOpen then some ⟨l-1,by omega⟩ else none
  else none

/-- Store a slot. -/
def CartFiles.setSlot (s : CartFiles D) (i : Fin clCartMaxHandles) (slot : CartSlot) :
    CartFiles D :=
  {s with slots := Function.update s.slots i slot}

/-- The function `ensure_info`. -/
def ensureInfo (s : CartFiles D) : (ℤ×Option CartInfo)×CartFiles D :=
  match s.driver.info with
  | none => ((-2,none),s)
  | some info =>
    let reply := info s.world
    ((reply.1.1,some reply.1.2),{s with world := reply.2})

/-- The function `cl_cart_set_driver`, with a driver or none. -/
def clCartSetDriver (driver : Option (CartDriver D)) (s : CartFiles D) : CartFiles D where
  driver := driver.getD noDriver
  slots i := {s.slots i with isOpen := false}
  world := s.world

/-- What an open finds in the metadata. -/
def openRefused (kind : CartFileKind) (flags : UInt32) (info : CartInfo) : Option ℤ :=
  if kind=.rom ∧ flags &&& clpOpenWrite≠0 ∧ info.canProgramRom=false then some (-4)
  else if kind=.save ∧ flags &&& clpOpenRead≠0 ∧ info.canReadSave=false then some (-5)
  else if kind=.save ∧ flags &&& clpOpenWrite≠0 ∧ info.canWriteSave=false then some (-6)
  else none

/-- The first free slot. -/
def freeCartSlot (s : CartFiles D) : Option (Fin clCartMaxHandles) :=
  (List.finRange clCartMaxHandles).find? fun i => (s.slots i).isOpen=false

/-- The function `cart_open`: the result and the local handle. -/
def cartOpen (path : CString) (flags : UInt32) (s : CartFiles D) : (ℤ×ℕ)×CartFiles D :=
  match kindFromPath path with
  | none => ((-2,0),s)
  | some kind =>
    if flags &&& clpOpenWrite≠0 ∧ kind=.info then ((-3,0),s)
    else
      match ensureInfo s with
      | ((ret,none),s) => ((ret,0),s)
      | ((ret,some info),s) =>
        if ret<0 then ((ret,0),s)
        else
          match openRefused kind flags info with
          | some error => ((error,0),s)
          | none =>
            match freeCartSlot s with
            | none => ((-7,0),s)
            | some i => ((0,i+1),s.setSlot i ⟨kind,flags,0,0,false,false,true⟩)

/-- Give a window back before its file is closed. -/
def closeWindow (i : Fin clCartMaxHandles) (s : CartFiles D) : CartFiles D :=
  match (s.slots i).directActive,s.driver.releaseDirect with
  | true,some release =>
    {s with world := (release (s.slots i).kind s.world).2}.setSlot i
      {s.slots i with directActive := false}
  | _,_ => s

/-- Flush a file before it is closed. -/
def closeFlush (i : Fin clCartMaxHandles) (s : CartFiles D) : ℤ×CartFiles D :=
  match s.driver.flush with
  | none => (0,s)
  | some flush =>
    if (s.slots i).flags &&& clpOpenWrite≠0 ∧ (s.slots i).flushed=false ∧
        (s.slots i).kind≠.info then
      let reply := flush (s.slots i).kind s.world
      (reply.1,{s with world := reply.2}.setSlot i
        {s.slots i with flushed := decide (reply.1=0)})
    else (0,s)

/-- The function `cart_close`. -/
def cartClose (l : ℕ) (s : CartFiles D) : ℤ×CartFiles D :=
  match slotFromLocal s l with
  | none => (-1,s)
  | some i =>
    let reply := closeFlush i (closeWindow i s)
    (reply.1,reply.2.setSlot i {reply.2.slots i with isOpen := false})

/-- The function `cart_read_info`. -/
def cartReadInfo (offset : UInt64) (length : UInt32) (s : CartFiles D) :
    Transfer×CartFiles D :=
  match ensureInfo s with
  | ((ret,none),s) => (⟨ret,[],0⟩,s)
  | ((ret,some info),s) =>
    if ret<0 then (⟨ret,[],0⟩,s)
    else
      let data := (info.image.drop offset.toNat).take length.toNat
      (⟨0,data,UInt32.ofNat data.length⟩,s)

/-- The end of a transfer: a success advances the offset. -/
def finishCart (i : Fin clCartMaxHandles) (ret : ℤ) (length : UInt32) (written : Bool)
    (s : CartFiles D) : CartFiles D :=
  if ret=0 then s.setSlot i { s.slots i with
    offset := (s.slots i).offset+length.toUInt64
    flushed := (s.slots i).flushed && !(written && decide (length≠0)) }
  else s

/-- The function `cart_read`. -/
def cartRead (l : ℕ) (length : UInt32) (s : CartFiles D) : Transfer×CartFiles D :=
  match slotFromLocal s l with
  | none => (⟨-2,[],0⟩,s)
  | some i =>
    if (s.slots i).flags &&& clpOpenRead=0 then (⟨-2,[],0⟩,s)
    else if (s.slots i).directActive then (⟨-4,[],0⟩,s)
    else if (s.slots i).kind=.info then
      let reply := cartReadInfo (s.slots i).offset length s
      (reply.1,finishCart i reply.1.ret reply.1.length false reply.2)
    else
      match s.driver.read with
      | none => (⟨-3,[],0⟩,s)
      | some read =>
        let reply := read (s.slots i).kind (s.slots i).offset length s.world
        (reply.1,finishCart i reply.1.ret reply.1.length false {s with world := reply.2})

/-- The function `cart_write`. -/
def cartWrite (l : ℕ) (src : List UInt8) (s : CartFiles D) : (ℤ×UInt32)×CartFiles D :=
  match slotFromLocal s l with
  | none => ((-2,0),s)
  | some i =>
    if (s.slots i).flags &&& clpOpenWrite=0 ∨ (s.slots i).kind=.info then ((-2,0),s)
    else if (s.slots i).directActive then ((-4,0),s)
    else
      match s.driver.write with
      | none => ((-3,0),s)
      | some write =>
        let reply := write (s.slots i).kind (s.slots i).offset src s.world
        (reply.1,finishCart i reply.1.1 reply.1.2 true {s with world := reply.2})

/-- Take back a window that is longer than was asked for. -/
def refuseWindow (i : Fin clCartMaxHandles) (length : UInt32) (s : CartFiles D) :
    CartFiles D :=
  match s.driver.releaseDirect with
  | some release =>
    if length≠0 then {s with world := (release (s.slots i).kind s.world).2} else s
  | none => s

/-- The function `cart_direct_read`: the result and the window. -/
def cartDirectRead (l : ℕ) (maxLength : UInt32) (s : CartFiles D) :
    (ℤ×WindowReply)×CartFiles D :=
  match slotFromLocal s l with
  | none => ((-2,.null 0),s)
  | some i =>
    if (s.slots i).flags &&& clpOpenRead=0 ∨ (s.slots i).kind=.info then ((-2,.null 0),s)
    else if (s.slots i).directActive then ((-3,.null 0),s)
    else
      match s.driver.directRead with
      | none => ((0,.null 0),s)
      | some directRead =>
        let reply := directRead (s.slots i).kind (s.slots i).offset maxLength s.world
        let s := {s with world := reply.2}
        if reply.1.1<0 then (reply.1,s)
        else
          match reply.1.2 with
          | .null length =>
            if length≠0 then ((-4,.null length),s)
            else ((0,.null 0),s.setSlot i {s.slots i with directActive := false})
          | .window window =>
            if maxLength<window.length then ((-5,.null 0),refuseWindow i window.length s)
            else ((0,.window window),s.setSlot i { s.slots i with
              offset := (s.slots i).offset+window.length.toUInt64
              directActive := decide (window.length≠0) })

/-- The function `cart_release_direct`. -/
def cartReleaseDirect (l : ℕ) (s : CartFiles D) : ℤ×CartFiles D :=
  match slotFromLocal s l with
  | none => (-1,s)
  | some i =>
    if (s.slots i).directActive=false then (0,s)
    else
      match s.driver.releaseDirect with
      | none => (0,s.setSlot i {s.slots i with directActive := false})
      | some release =>
        let reply := release (s.slots i).kind s.world
        let s := {s with world := reply.2}
        (reply.1,if reply.1=0 then s.setSlot i {s.slots i with directActive := false} else s)

/-- The function `cart_seek`. -/
def cartSeek (l : ℕ) (offset : UInt64) (s : CartFiles D) : ℤ×CartFiles D :=
  match slotFromLocal s l with
  | none => (-1,s)
  | some i =>
    if (s.slots i).directActive then (-2,s)
    else (0,s.setSlot i {s.slots i with offset := offset})

/-- The function `cart_truncate`. -/
def cartTruncate (l : ℕ) (size : UInt64) (s : CartFiles D) : ℤ×CartFiles D :=
  match slotFromLocal s l with
  | none => (-1,s)
  | some i =>
    if (s.slots i).flags &&& clpOpenWrite=0 ∨ (s.slots i).kind=.info then (-1,s)
    else if (s.slots i).directActive then (-2,s)
    else
      let s := s.setSlot i {s.slots i with targetSize := size,flushed := false}
      match s.driver.setSize with
      | none => (0,s)
      | some setSize =>
        let reply := setSize (s.slots i).kind size s.world
        (reply.1,{s with world := reply.2})

/-- The function `cart_flush`. -/
def cartFlush (l : ℕ) (s : CartFiles D) : ℤ×CartFiles D :=
  match slotFromLocal s l with
  | none => (-1,s)
  | some i =>
    if (s.slots i).directActive then (-2,s)
    else
      match s.driver.flush with
      | none => (0,s)
      | some flush =>
        if (s.slots i).kind=.info then (0,s)
        else
          let reply := flush (s.slots i).kind s.world
          let s := {s with world := reply.2}
          (reply.1,if reply.1=0 then s.setSlot i {s.slots i with flushed := true} else s)

end ChisLink.CartFile
