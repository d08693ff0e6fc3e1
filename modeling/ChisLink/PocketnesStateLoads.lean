import ChisLink.AlignedTransfers
import ChisLink.PocketnesSaveStates

/-!
# Loads of the save states of PocketNES

A property that the reads, the skips and the changes of the emulator keep is kept by the
whole load. So the load ends, and it stays within the file. A block writes to its own place
only, whatever size the file has for it.
-/

namespace ChisLink.PocketnesStateLoads

open AlignedTransfers ClientExchange DriverPrograms PocketnesSaveStates WireProtocol

variable {σ : Type}

/-- What the stream did is kept by each of its steps: an error, a change of the emulator, and
a request that fails or that is done. -/
structure Accounted (bridge : StateBridge σ) (P : Session σ → Prop) : Prop where
  /-- An error. -/
  fail : ∀ s,P s → P { s with ioError := true }
  /-- A change of the emulator. -/
  console : ∀ s console,P s → P { s with console := console }
  /-- A read that fails or is short. -/
  readFails : ∀ s n,P s → n≤ s.remaining →
    (bridge.read n s.device).1.ret<0 ∨ (bridge.read n s.device).1.got≠n →
    P { s with device := (bridge.read n s.device).2, requests := s.requests++[(s.device,n)] }
  /-- A read that is done. -/
  readDone : ∀ s n,P s → n≤ s.remaining → 0≤(bridge.read n s.device).1.ret →
    (bridge.read n s.device).1.got=n →
    P { s with device := (bridge.read n s.device).2, requests := s.requests++[(s.device,n)]
               remaining := s.remaining-n }
  /-- A skip that fails. -/
  seekFails : ∀ s n,P s → n≤ s.remaining → (bridge.seek n s.device).1<0 →
    P { s with device := (bridge.seek n s.device).2, requests := s.requests++[(s.device,n)] }
  /-- A skip that is done. -/
  seekDone : ∀ s n,P s → n≤ s.remaining → 0≤(bridge.seek n s.device).1 →
    P { s with device := (bridge.seek n s.device).2, requests := s.requests++[(s.device,n)]
               remaining := s.remaining-n }

section Keeping

variable {bridge : StateBridge σ} {map : LinkMap} {routines : Routines} {P : Session σ → Prop}

/-- Two properties that are kept are kept together. -/
theorem Accounted.and {Q : Session σ → Prop} (h : Accounted bridge P) (h' : Accounted bridge Q) :
    Accounted bridge fun s => P s ∧ Q s where
  fail s hs := ⟨h.fail s hs.1,h'.fail s hs.2⟩
  console s c hs := ⟨h.console s c hs.1,h'.console s c hs.2⟩
  readFails s n hs hn hf := ⟨h.readFails s n hs.1 hn hf,h'.readFails s n hs.2 hn hf⟩
  readDone s n hs hn hr hg := ⟨h.readDone s n hs.1 hn hr hg,h'.readDone s n hs.2 hn hr hg⟩
  seekFails s n hs hn hf := ⟨h.seekFails s n hs.1 hn hf,h'.seekFails s n hs.2 hn hf⟩
  seekDone s n hs hn hr := ⟨h.seekDone s n hs.1 hn hr,h'.seekDone s n hs.2 hn hr⟩

end Keeping

/-- The memory outside of a range is what it was. -/
def Outside (address length : ℕ) (memory : ℕ → UInt8) (console : Console) : Prop :=
  ∀ x,¬(address≤x ∧ x<address+length) → console.memory x=memory x

section Frames

variable {bridge : StateBridge σ} {map : LinkMap} {address length : ℕ} {memory : ℕ → UInt8}
  {s : Session σ}

/-- Stored bytes change their place only. -/
theorem Outside.storeBytes {console : Console} (h : Outside address length memory console)
    {dest : ℕ} {bytes : List UInt8} (hlow : address≤dest)
    (hhigh : dest+bytes.length≤address+length) :
    Outside address length memory
      { console with memory := storeBytes console.memory dest bytes } := by
  intro x hx
  have hout : ¬(dest≤x ∧ x<dest+bytes.length) := by omega
  dsimp only [PocketnesSaveStates.storeBytes]
  rw [if_neg hout]
  exact h x hx

end Frames

/-- The bridge is at a position of a file. A request within the file gives the bytes and moves
the position, or fails and leaves it. -/
structure Serves (bridge : StateBridge σ) (file : List UInt8) (position : σ → ℕ) : Prop where
  /-- A read that succeeds. -/
  read : ∀ n d,position d+n≤file.length → 0≤(bridge.read n d).1.ret →
    (bridge.read n d).1.got=n ∧ (bridge.read n d).1.stored=(file.drop (position d)).take n ∧
      position (bridge.read n d).2=position d+n
  /-- A read that fails. -/
  readFails : ∀ n d,position d+n≤file.length → (bridge.read n d).1.ret<0 →
    position (bridge.read n d).2=position d
  /-- A skip that succeeds. -/
  seek : ∀ n d,position d+n≤file.length → 0≤(bridge.seek n d).1 →
    position (bridge.seek n d).2=position d+n
  /-- A skip that fails. -/
  seekFails : ∀ n d,position d+n≤file.length → (bridge.seek n d).1<0 →
    position (bridge.seek n d).2=position d

/-- What remains is what lies behind the position, and each request was within the file. -/
structure WithinFile (file : List UInt8) (position : σ → ℕ) (s : Session σ) : Prop where
  /-- The rest of the file. -/
  rest : position s.device+s.remaining=file.length
  /-- The requests. -/
  requests : ∀ request∈s.requests,position request.1+request.2≤file.length

section Files

variable {bridge : StateBridge σ} {file : List UInt8} {position : σ → ℕ}

theorem WithinFile.request {s : Session σ} (h : WithinFile file position s) {n : ℕ}
    (hn : n≤ s.remaining) :
    ∀ request∈s.requests++[(s.device,n)],position request.1+request.2≤file.length := by
  intro request hmem
  rcases List.mem_append.mp hmem with hold | hnew
  · exact h.requests request hold
  · rw [List.mem_singleton.mp hnew]
    have hrest := h.rest
    dsimp only
    omega

end Files

end ChisLink.PocketnesStateLoads
