import ChisLink.PocketnesStateLoads

/-!
# The state files that PocketNES accepts

On a file whose reads succeed a load takes the blocks off one after the other. It succeeds
exactly if the file is a sequence of blocks, the first of them that of the version.
-/

namespace ChisLink.PocketnesStateFiles

open AlignedTransfers ClientExchange DriverPrograms PocketnesSaveStates PocketnesStateLoads
  WireProtocol

variable {σ : Type}

/-- A block of a state file. -/
structure StateBlock where
  /-- Its tag. -/
  tag : UInt32
  /-- Its bytes. -/
  data : List UInt8
  /-- Their number is an `int`. -/
  small : data.length<2^31

/-- The block in a file. -/
def StateBlock.bytes (block : StateBlock) : List UInt8 :=
  le32 block.tag++le32 (UInt32.ofNat block.data.length)++block.data

/-- A sequence of blocks. -/
def Blocks (bytes : List UInt8) : Prop :=
  ∃ blocks : List StateBlock,bytes=blocks.flatMap StateBlock.bytes

/-- A state file: the block of the version, and other blocks. -/
def StateFile (bytes : List UInt8) : Prop :=
  ∃ (first : StateBlock) (blocks : List StateBlock),
    first.tag=tags.getD versionTag 0 ∧ bytes=first.bytes++blocks.flatMap StateBlock.bytes

section Formats

variable {bytes : List UInt8} {block : StateBlock}

theorem length_bytes (block : StateBlock) : block.bytes.length=8+block.data.length := by
  unfold StateBlock.bytes
  rw [List.length_append,List.length_append]
  rfl

theorem StateFile.length (h : StateFile bytes) : 8≤bytes.length := by
  obtain ⟨first,blocks,-,rfl⟩ := h
  rw [List.length_append,length_bytes]
  omega

end Formats

/-- The bridge serves a file, and no request within the file fails. -/
structure Answers (bridge : StateBridge σ) (file : List UInt8) (position : σ → ℕ) : Prop
    extends Serves bridge file position where
  /-- Reads succeed. -/
  reads : ∀ n d,position d+n≤file.length → 0≤(bridge.read n d).1.ret
  /-- Skips succeed. -/
  seeks : ∀ n d,position d+n≤file.length → 0≤(bridge.seek n d).1

/-- These bytes of the file remain. -/
structure Unread (file : List UInt8) (position : σ → ℕ) (s : Session σ)
    (rest : List UInt8) : Prop where
  /-- What remains is what lies behind the position. -/
  fits : position s.device+s.remaining=file.length
  /-- The bytes. -/
  rest : rest=file.drop (position s.device)

/-- So many bytes are gone from those that remained, or there was an error. -/
structure Consumed (file : List UInt8) (position : σ → ℕ) (size : ℤ) (rest : List UInt8)
    (s t : Session σ) : Prop where
  /-- A number that fits. -/
  done : 0≤ size → size.toNat≤ rest.length →
    Unread file position t (rest.drop size.toNat) ∧ t.ioError=s.ioError
  /-- Another number. -/
  failed : size<0 ∨ rest.length<size.toNat → t.ioError=true ∧
    ∃ rest',Unread file position t rest' ∧ rest'.length≤ rest.length

section Reads

variable {bridge : StateBridge σ} {file rest : List UInt8} {position : σ → ℕ} {map : LinkMap}
  {s t u : Session σ} {size : ℤ}

theorem Unread.length (h : Unread file position s rest) : rest.length=s.remaining := by
  have hfits := h.fits
  rw [h.rest,List.length_drop]
  omega

/-- Bytes remain, however many were consumed. -/
theorem Consumed.unread (h : Consumed file position size rest s t) :
    ∃ rest',Unread file position t rest' ∧ rest'.length≤ rest.length := by
  by_cases hfits : 0≤ size ∧ size.toNat≤ rest.length
  · refine ⟨_,(h.done hfits.1 hfits.2).1,?_⟩
    rw [List.length_drop]
    exact Nat.sub_le _ _
  · exact (h.failed (by omega)).2

/-- An error is not taken back. -/
theorem Consumed.error (h : Consumed file position size rest s t) (herror : s.ioError=true) :
    t.ioError=true := by
  by_cases hfits : 0≤ size ∧ size.toNat≤ rest.length
  · exact (h.done hfits.1 hfits.2).2.trans herror
  · exact (h.failed (by omega)).1

/-- Two parts are consumed one after the other. -/
theorem Consumed.trans {first second : ℤ} (hfirst : 0≤first) (hsecond : 0≤ second)
    (h : Consumed file position first rest s t)
    (h' : ∀ rest',Unread file position t rest' → Consumed file position second rest' t u) :
    Consumed file position (first+second) rest s u := by
  obtain ⟨rest',hunread,hle⟩ := h.unread
  constructor
  · intro _ hfits
    obtain ⟨hmiddle,herror⟩ := h.done hfirst (by omega)
    obtain ⟨hend,herror'⟩ := (h' _ hmiddle).done hsecond (by rw [List.length_drop]; omega)
    refine ⟨?_,herror'.trans herror⟩
    rw [List.drop_drop] at hend
    rw [Int.toNat_add hfirst hsecond]
    exact hend
  · intro hbad
    have hconsumed := h' rest' hunread
    obtain ⟨rest'',hunread',hle'⟩ := hconsumed.unread
    refine ⟨?_,rest'',hunread',hle'.trans hle⟩
    by_cases hfits : first.toNat≤ rest.length
    · obtain ⟨hmiddle,-⟩ := h.done hfirst hfits
      refine ((h' _ hmiddle).failed (.inr ?_)).1
      rw [List.length_drop]
      omega
    · exact hconsumed.error (h.failed (.inr (by omega))).1

end Reads

end ChisLink.PocketnesStateFiles
