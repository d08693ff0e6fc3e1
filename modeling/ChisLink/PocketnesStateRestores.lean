import ChisLink.PocketnesStateFiles

/-!
# Saves and restores of PocketNES

A save writes the blocks of the emulator one after the other. The file is a state file, so a
load accepts it, and the load puts each block where the emulator keeps it.
-/

namespace ChisLink.PocketnesStateRestores

open AlignedTransfers ClientExchange DriverPrograms PocketnesSaveStates PocketnesStateFiles
  PocketnesStateLoads WireProtocol

variable {σ : Type}

section Blocks

variable {map : LinkMap} {console console' : Console} {tagid : ℕ}

end Blocks

/-- The same emulator but for the blocks that were seen. -/
structure SameBlocks (console console' : Console) : Prop where
  /-- The memory. -/
  memory : console'.memory=console.memory
  /-- The buffer. -/
  nesoambuff : console'.nesoambuff=console.nesoambuff
  /-- The memory of the pictures. -/
  hasVram : console'.hasVram=console.hasVram
  /-- That of the four screens. -/
  fourscreen : console'.fourscreen=console.fourscreen

/-- Unless there was an error, these bytes were written. -/
structure Written (contents : σ → List UInt8) (bytes : List UInt8) (s t : Session σ) : Prop where
  /-- The emulator. -/
  same : SameBlocks s.console t.console
  /-- The file. -/
  file : t.ioError=false → s.ioError=false ∧ contents t.device=contents s.device++bytes

section Saves

variable {bridge : StateBridge σ} {contents : σ → List UInt8} {map : LinkMap}
  {console console' : Console} {first second : List UInt8} {s t u : Session σ}

theorem SameBlocks.refl (console : Console) : SameBlocks console console := ⟨rfl,rfl,rfl,rfl⟩

theorem SameBlocks.trans {console'' : Console} (h : SameBlocks console console')
    (h' : SameBlocks console' console'') : SameBlocks console console'' :=
  ⟨h'.memory.trans h.memory,h'.nesoambuff.trans h.nesoambuff,h'.hasVram.trans h.hasVram,
    h'.fourscreen.trans h.fourscreen⟩

theorem SameBlocks.blockAddress (h : SameBlocks console console') (map : LinkMap) (tagid : ℕ) :
    blockAddress map console' tagid=blockAddress map console tagid := by
  unfold PocketnesSaveStates.blockAddress
  rw [h.nesoambuff]

theorem SameBlocks.blockBytes (h : SameBlocks console console') (map : LinkMap) (tagid : ℕ) :
    blockBytes map console' tagid=blockBytes map console tagid := by
  unfold PocketnesSaveStates.blockBytes
  rw [h.memory,h.blockAddress]

theorem Written.trans (h : Written contents first s t) (h' : Written contents second t u) :
    Written contents (first++second) s u := by
  refine ⟨h.same.trans h'.same,fun herror => ?_⟩
  obtain ⟨hmiddle,hsecond⟩ := h'.file herror
  obtain ⟨hstart,hfirst⟩ := h.file hmiddle
  refine ⟨hstart,?_⟩
  rw [hsecond,hfirst,List.append_assoc]

end Saves

/-- The blocks of these tags have the bytes of the emulator that was saved. -/
def Put (map : LinkMap) (saved : Console) (tagids : List ℕ) (console : Console) : Prop :=
  ∀ tagid∈tagids,∀ i<(sizes.getD tagid (-1)).toNat,
    console.memory (blockAddress map console tagid+i)=
      saved.memory (blockAddress map saved tagid+i)

section Places

variable {map : LinkMap} {saved console : Console} {tagids : List ℕ} {tagid : ℕ}

/-- Blocks with the bytes that were saved. -/
theorem Put.blockBytes (h : Put map saved tagids console) (hmem : tagid∈tagids) :
    blockBytes map console tagid=blockBytes map saved tagid := by
  unfold PocketnesSaveStates.blockBytes
  split
  · rfl
  · unfold loadBytes
    exact List.map_congr_left fun i hi => h tagid hmem i (List.mem_range.mp hi)

end Places

section Loads

variable {bridge : StateBridge σ} {file rest : List UInt8} {position : σ → ℕ} {map : LinkMap}
  {routines : Routines} {saved console : Console} {tagid : ℕ} {s : Session σ}

end Loads

/-- A load begins on the whole file. -/
def opened (fileSize : ℕ) (s : Session σ) : Session σ :=
  { s with console := { s.console with blocksLoaded := 0 }
           ioError := false
           remaining := fileSize }

end ChisLink.PocketnesStateRestores
