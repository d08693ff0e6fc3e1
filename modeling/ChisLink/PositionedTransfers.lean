import ChisLink.PosixSeek

/-!
# Transfers at a position

A read or a write at a position seeks to it, transfers, and seeks back to the offset that
the file layer told before. The offset and the position of the backend are both where they
were when the last seek succeeds, whatever the transfer came to.
-/

namespace ChisLink.PositionedTransfers

open FileLayer PosixSeek StorageClient

variable {W : Type}

section Program

/-- What a transfer through the wrappers returns. -/
structure PosixTransfer where
  /-- The result. -/
  ret : ℤ
  /-- The bytes that were read. -/
  data : List UInt8
  /-- What `cl_file_posix_errno` is set to, if it is. -/
  errno : Option ℤ

/-- What a transfer at a position returns, and the result of the seek back, which the source
throws away, if the call comes to it. -/
structure Positioned where
  /-- What is returned. -/
  reply : PosixTransfer
  /-- The result of the seek back. -/
  restored : Option ℤ

end Program

section Frame

variable {s t u : Files W} {i : Fin clFileMaxHandles} {slot : FileSlot W} {file : ℕ}

/-- Of the open handles, nothing but the offset of one may have changed. -/
def OnlyOffset (i : Fin clFileMaxHandles) (slot : FileSlot W) (s t : Files W) : Prop :=
  ∃ offset,t.slots=Function.update s.slots i (some {slot with offset := offset})

theorem slots_of_slotFromHandle (h : slotFromHandle s file=some (i,slot)) :
    s.slots i=some slot := by
  unfold slotFromHandle at h
  obtain ⟨j,-,hj⟩ := Option.bind_eq_some_iff.mp h
  obtain ⟨other,hother,heq⟩ := Option.map_eq_some_iff.mp hj
  cases heq
  exact hother

/-- The handle has the slot with another offset. -/
theorem OnlyOffset.slotFromHandle (h : OnlyOffset i slot s t)
    (hslot : FileLayer.slotFromHandle s file=some (i,slot)) :
    ∃ offset,FileLayer.slotFromHandle t file=some (i,{slot with offset := offset}) := by
  obtain ⟨offset,hslots⟩ := h
  refine ⟨offset,?_⟩
  unfold FileLayer.slotFromHandle at hslot ⊢
  obtain ⟨j,hindex,hj⟩ := Option.bind_eq_some_iff.mp hslot
  obtain ⟨other,-,heq⟩ := Option.map_eq_some_iff.mp hj
  cases heq
  rw [hindex,Option.bind_some,hslots,Function.update_self,Option.map_some]

theorem onlyOffset_world (hslot : s.slots i=some slot) (w : W) :
    OnlyOffset i slot s {s with world := w} :=
  ⟨slot.offset,by rw [← hslot,Function.update_eq_self]⟩

theorem OnlyOffset.trans {offset : UInt64} (h : OnlyOffset i slot s t)
    (h' : OnlyOffset i {slot with offset := offset} t u) : OnlyOffset i slot s u := by
  obtain ⟨first,hfirst⟩ := h
  obtain ⟨second,hsecond⟩ := h'
  exact ⟨second,by rw [hsecond,hfirst,Function.update_idem]⟩

/-- A transfer changes the offset of its handle at most. -/
theorem onlyOffset_finish (hslot : s.slots i=some slot) (counted : Bool) (reply : Transfer×W) :
    OnlyOffset i slot s (finishTransfer s i slot counted reply).2 := by
  unfold finishTransfer
  dsimp only
  split
  · exact ⟨_,rfl⟩
  · exact onlyOffset_world hslot reply.2

theorem onlyOffset_call {γ ρ : Type} (hslot : slotFromHandle s file=some (i,slot))
    (op : BackendOps W → Option γ) (refused : ρ)
    (call : Fin clFileMaxHandles → FileSlot W → γ → ρ×Files W)
    (hcall : ∀ f,OnlyOffset i slot s (call i slot f).2) :
    OnlyOffset i slot s (callSlot s file op refused call).2 := by
  have hsame := onlyOffset_world (slots_of_slotFromHandle hslot) s.world
  unfold callSlot
  rw [hslot]
  dsimp only
  cases op slot.backend.ops with
  | none => exact hsame
  | some f => exact hcall f

theorem onlyOffset_read (hslot : slotFromHandle s file=some (i,slot)) (count : UInt32) :
    OnlyOffset i slot s (clFileRead file count true s).2 :=
  onlyOffset_call hslot _ _ _ fun _ => onlyOffset_finish (slots_of_slotFromHandle hslot) _ _

/-- What a seek of an open handle comes to. -/
theorem clFileSeek_slot (hslot : slotFromHandle s file=some (i,slot)) (offset : UInt64) :
    ((clFileSeek file offset s).1=0 ∧ ∃ seek,slot.backend.ops.seek=some seek ∧
        (seek slot.localHandle offset s.world).1=0 ∧
        (clFileSeek file offset s).2.world=(seek slot.localHandle offset s.world).2 ∧
        (clFileSeek file offset s).2.slots=
          Function.update s.slots i (some {slot with offset := offset})) ∨
      ((clFileSeek file offset s).1≠0 ∧ (clFileSeek file offset s).2.slots=s.slots) := by
  unfold clFileSeek callSlot
  rw [hslot]
  dsimp only
  cases hseek : slot.backend.ops.seek with
  | none => exact Or.inr ⟨(by decide : (-1 : ℤ)≠0),rfl⟩
  | some seek =>
    dsimp only
    by_cases hzero : (seek slot.localHandle offset s.world).1=0
    · rw [if_pos hzero]
      exact Or.inl ⟨rfl,seek,rfl,hzero,rfl,rfl⟩
    · rw [if_neg hzero]
      exact Or.inr ⟨hzero,rfl⟩

theorem onlyOffset_seek (hslot : slotFromHandle s file=some (i,slot)) (offset : UInt64) :
    OnlyOffset i slot s (clFileSeek file offset s).2 := by
  rcases clFileSeek_slot hslot offset with ⟨-,_,-,-,-,hslots⟩ | ⟨-,hslots⟩
  · exact ⟨offset,hslots⟩
  · refine ⟨slot.offset,?_⟩
    rw [hslots,← slots_of_slotFromHandle hslot,Function.update_eq_self]

end Frame

section Positions

variable {s : Files W} {fd : ℤ} {i : Fin clFileMaxHandles} {slot : FileSlot W}

/-- The file layer tells where the backend is, and a seek back to this offset goes there if
it succeeds. -/
structure Tracked (p : Positions W) (s : Files W) (fd : ℤ) (i : Fin clFileMaxHandles)
    (slot : FileSlot W) : Prop where
  /-- The descriptor is open. -/
  isOpen : slotFromHandle s (handleOf fd)=some (i,slot)
  /-- The two positions are equal. -/
  agrees : slot.offset=p.position slot.key s.world
  /-- A seek to the offset, if it succeeds, goes there. -/
  returns : ∀ seek,slot.backend.ops.seek=some seek → ∀ w,
    (seek slot.localHandle slot.offset w).1=0 →
      p.position slot.key (seek slot.localHandle slot.offset w).2=slot.offset

/-- The positions after a call: if a seek back succeeded all are as before, and without one
no offset has changed. -/
structure Restores (p : Positions W) (s : Files W) (fd : ℤ) (slot : FileSlot W)
    (result : Positioned×Files W) : Prop where
  /-- What the file layer tells. -/
  tell : result.1.restored=some 0 →
    clFileTell (handleOf fd) result.2=clFileTell (handleOf fd) s
  /-- Where the backend is. -/
  position : result.1.restored=some 0 →
    p.position slot.key result.2.world=p.position slot.key s.world
  /-- All slots. -/
  slots : result.1.restored=some 0 ∨ result.1.restored=none → result.2.slots=s.slots

end Positions

end ChisLink.PositionedTransfers
