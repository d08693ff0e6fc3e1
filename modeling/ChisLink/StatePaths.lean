import Mathlib.Logic.Function.Basic
import ChisLink.StorageClient
import ChisLink.Utf8Units

/-!
# Paths of saved states

The bridge of the emulators names the file of a saved state after the game. The name is
cleaned of what a file system may not take, cut to a length and trimmed, in a buffer of its
own. A character that takes several bytes is copied whole or not at all.
-/

namespace ChisLink.StatePaths

open StorageClient Utf8Units

/-- Bytes of `s_state_path`. -/
def statePathSize : ℕ := 320

/-- The number `CHISLINK_STATE_SLOT_COUNT`. -/
def chislinkStateSlotCount : UInt8 := 10

/-- The emulator that the bridge is built for. -/
inductive Emulator where
  /-- With `CHISLINK_GOOMBACOLOR`. -/
  | goombacolor
  /-- Without it. -/
  | pocketnes
deriving DecidableEq

/-- A text of plain characters. -/
def ascii (text : List Char) : List UInt8 := text.map fun c => UInt8.ofNat c.toNat

/-- The string `emulator`. -/
def Emulator.name : Emulator → List UInt8
  | .goombacolor => ascii ['g','o','o','m','b','a','c','o','l','o','r']
  | .pocketnes => ascii ['p','o','c','k','e','t','n','e','s']

/-- The string `"/sd/.chislink"`. -/
def chislinkDirectory : List UInt8 :=
  ascii ['/','s','d','/','.','c','h','i','s','l','i','n','k']

/-- The string `"/savestate"`. -/
def savestateDirectory : List UInt8 := ascii ['/','s','a','v','e','s','t','a','t','e']

/-- The string `"game"`. -/
def gameName : List UInt8 := ascii ['g','a','m','e']

/-- The string `"/state-"`. -/
def stateName : List UInt8 := ascii ['/','s','t','a','t','e','-']

/-- The string `".sav"`. -/
def savExtension : List UInt8 := ascii ['.','s','a','v']

section Program

/-- The array `s_state_path`, the index behind what was written, and the directories that
were asked for. -/
structure StatePath where
  /-- The bytes. -/
  cells : ℕ → UInt8
  /-- The variable `at`. -/
  at' : ℕ
  /-- The calls of `cl_storage_mkdir`, whose results are not used. -/
  made : List (List UInt8)

/-- Write the byte behind the text. There is no meaning in a write behind the array. -/
def put (b : UInt8) (s : StatePath) : Option StatePath :=
  if s.at'< statePathSize then
    some {s with cells := Function.update s.cells s.at' b,at' := s.at'+1}
  else none

/-- Write several bytes. -/
def putAll : List UInt8 → StatePath → Option StatePath
  | [],s => some s
  | b::rest,s => (put b s).bind (putAll rest)

/-- Terminate the text. -/
def terminate (s : StatePath) : Option StatePath :=
  if s.at'< statePathSize then some {s with cells := Function.update s.cells s.at' 0}
  else none

/-- The function `bridge_path_append`. -/
def bridgePathAppend : List UInt8 → StatePath → Option (ℤ×StatePath)
  | [],s => (terminate s).map fun s => (0,s)
  | b::text,s =>
    if statePathSize≤ s.at'+1 then some (-1,s) else (put b s).bind (bridgePathAppend text)

/-- Ask for the directory of the text, if directories are to be made. -/
def mkdir (makeDirs : Bool) (s : StatePath) : StatePath :=
  if makeDirs=true then {s with made := s.made++[(List.range s.at').map s.cells]} else s

/-- The variable `width` of a byte that begins a unit. -/
def startWidth (lead : UInt8) : ℕ :=
  if lead<0x80 then 1
  else if lead &&& 0xe0=0xc0 then 2
  else if lead &&& 0xf0=0xe0 then 3
  else if lead &&& 0xf8=0xf0 then 4
  else 0

/-- The function `bridge_utf8_width` on the bytes from `text` to `end`. -/
def bridgeUtf8Width : List UInt8 → ℕ
  | [] => 0
  | lead::rest =>
    let width := startWidth lead
    if width=0 ∨ rest.length+1< width then 0
    else if (rest.take (width-1)).all fun b => b &&& 0xc0=0x80 then width
    else 0

/-- The bytes that are replaced in a name. -/
def isIllegal (ch : UInt8) : Bool :=
  ch<0x20 || [0x3c,0x3e,0x3a,0x22,0x2f,0x5c,0x7c,0x3f,0x2a].contains ch

/-- The loop that copies the name into the component that begins at `start`. Every round
takes at least one byte, so that the length bounds the rounds. -/
def copyName (start : ℕ) : ℕ → List UInt8 → StatePath → Option StatePath
  | 0,_,s => some s
  | _,[],s => some s
  | rounds+1,ch::rest,s =>
    if isIllegal ch=true then
      if 200<s.at'-start+1 ∨ statePathSize≤ s.at'+1 then some s
      else (put 0x5f s).bind (copyName start rounds rest)
    else
      let found := bridgeUtf8Width (ch::rest)
      let width := if found=0 then 1 else found
      let ch' := if found=0 then 0x5f else ch
      if 200<s.at'-start+width ∨ statePathSize≤ s.at'+width then some s
      else if ch'=0x5f then
        (put 0x5f s).bind (copyName start rounds ((ch::rest).drop width))
      else
        (putAll ((ch::rest).take width) s).bind
          (copyName start rounds ((ch::rest).drop width))

/-- The loop that takes spaces and dots off the end of the component. -/
def trimEnd (cells : ℕ → UInt8) (start : ℕ) : ℕ → ℕ
  | 0 => 0
  | n+1 => if start<n+1 ∧ (cells n=0x20 ∨ cells n=0x2e) then trimEnd cells start n else n+1

/-- The loop that looks for the name behind the last slash. -/
def afterSlash : List UInt8 → List UInt8 → List UInt8
  | name,[] => name
  | name,c::rest => if c=0x2f then afterSlash rest rest else afterSlash name rest

/-- The loop that looks for the last dot of a name, from an index on. -/
def lastDot : ℕ → Option ℕ → List UInt8 → Option ℕ
  | _,dot,[] => dot
  | i,dot,c::rest => lastDot (i+1) (if c=0x2e then some i else dot) rest

/-- The bytes from `name` to `end`: without the extension, unless there is nothing before
it. -/
def nameOf (path : List UInt8) : List UInt8 :=
  let name := afterSlash path path
  match lastDot 0 none name with
  | some (i+1) => name.take (i+1)
  | _ => name

/-- The number of a slot in digits. -/
def slotDigits (slot : UInt8) : List UInt8 :=
  if slot=10 then [0x31,0x30] else [0x30+slot]

/-- The component of the game behind the directories: the name, trimmed, or else `"game"`. -/
def writeGame (name : List UInt8) (s : StatePath) : Option (ℤ×StatePath) := do
  let start := s.at'
  let s ← copyName start name.length name s
  let s := {s with at' := trimEnd s.cells start s.at'}
  if s.at'=start then bridgePathAppend gameName s else pure (0,s)

/-- The function `bridge_state_build_path`. -/
def bridgeStateBuildPath (emulator : Emulator) (isOpen : Bool) (path : CString) (slot : UInt8)
    (makeDirs : Bool) (s : StatePath) : Option (ℤ×StatePath) := do
  if isOpen=false ∨ slot=0 ∨ chislinkStateSlotCount< slot then pure (-1,s)
  else do
    let s ← terminate {s with at' := 0}
    let (ret,s) ← bridgePathAppend chislinkDirectory s
    if ret<0 then pure (-2,s)
    else do
      let s := mkdir makeDirs s
      let (ret,s) ← bridgePathAppend [0x2f] s
      if ret<0 then pure (-2,s)
      else do
        let (ret,s) ← bridgePathAppend emulator.name s
        if ret<0 then pure (-2,s)
        else do
          let s := mkdir makeDirs s
          let (ret,s) ← bridgePathAppend savestateDirectory s
          if ret<0 then pure (-2,s)
          else do
            let s := mkdir makeDirs s
            let (ret,s) ← bridgePathAppend [0x2f] s
            if ret<0 then pure (-2,s)
            else do
              let (ret,s) ← writeGame (nameOf path.1) s
              if ret<0 then pure (-2,s)
              else do
                let s := mkdir makeDirs (← terminate s)
                let (ret,s) ← bridgePathAppend stateName s
                if ret<0 then pure (-2,s)
                else do
                  let s ← putAll (slotDigits slot) s
                  let s ← terminate s
                  bridgePathAppend savExtension s

end Program

end ChisLink.StatePaths
