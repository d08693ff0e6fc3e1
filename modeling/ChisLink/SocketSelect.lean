import ChisLink.NetTransfers
import ChisLink.SocketOwnership

/-!
# Waiting for descriptors

A select polls the requested descriptors in rounds, until one of them is ready or the
attempts are used up. The three sets are copied before they are emptied, and the sets of
the round that ends the call take their place. A set that is not there is `none`, and the
three are different ones.
-/

namespace ChisLink.SocketSelect

open ClientExchange DriverPrograms NetClient NetTransfers SocketLayer WireProtocol

variable {δ : Type}

/-- The constant `CL_SOCKET_FD_SETSIZE`. -/
def clSocketFdSetsize : ℤ := 32

/-- The struct `cl_fd_set_t`. -/
structure FdSet where
  /-- A bit for each descriptor; the lowest one is that of descriptor one. -/
  bits : UInt32
deriving DecidableEq

/-- The function `fd_bit`. -/
def fdBit (fd : ℤ) : UInt32 :=
  if fd≤0 ∨ clSocketFdSetsize<fd then 0 else 1 <<< (UInt32.ofNat fd.toNat-1)

/-- The function `cl_fd_zero`. -/
def clFdZero (set : Option FdSet) : Option FdSet := set.map fun _ => ⟨0⟩

/-- The function `cl_fd_set`. -/
def clFdSet (fd : ℤ) (set : Option FdSet) : Option FdSet :=
  if fdBit fd=0 then set else set.map fun set => ⟨set.bits ||| fdBit fd⟩

/-- The function `cl_fd_clr`. -/
def clFdClr (fd : ℤ) (set : Option FdSet) : Option FdSet :=
  if fdBit fd=0 then set else set.map fun set => ⟨set.bits &&& ~~~fdBit fd⟩

/-- The function `cl_fd_isset`. -/
def clFdIsset (fd : ℤ) : Option FdSet → Bool
  | none => false
  | some set => fdBit fd≠0 && set.bits &&& fdBit fd≠0

/-- The sets of a call. -/
structure FdSets where
  /-- `readfds`. -/
  read : Option FdSet
  /-- `writefds`. -/
  write : Option FdSet
  /-- `exceptfds`. -/
  except : Option FdSet
deriving DecidableEq

/-- The sets without their descriptors. -/
def FdSets.zero (sets : FdSets) : FdSets :=
  ⟨clFdZero sets.read,clFdZero sets.write,clFdZero sets.except⟩

/-- The bits that a set requests. -/
def requestedBits : Option FdSet → UInt32
  | none => 0
  | some set => set.bits

/-- The variable `requested`. -/
def FdSets.requested (sets : FdSets) : UInt32 :=
  requestedBits sets.read ||| requestedBits sets.write ||| requestedBits sets.except

/-- The variables of a round, with the context. -/
structure Round where
  /-- The context. -/
  ctx : SocketContext
  /-- `ready_read`. -/
  readyRead : UInt32
  /-- `ready_write`. -/
  readyWrite : UInt32
  /-- `ready_count`. -/
  readyCount : ℕ

/-- The flags of a descriptor are stored, and it is ready for what was requested. -/
def noteFlags (sets : FdSets) (fd : ℕ) (slot : SocketFd) (flags : UInt32) (round : Round) :
    Round :=
  let bit := fdBit fd
  let slot := { slot with flags := flags }
  let readable := requestedBits sets.read &&& bit≠0 ∧ slot.flags &&& clpNetSocketFlagReadable≠0
  let writable := requestedBits sets.write &&& bit≠0 ∧ slot.flags &&& clpNetSocketFlagWritable≠0
  { ctx := putSlot round.ctx fd slot
    readyRead := if readable then round.readyRead ||| bit else round.readyRead
    readyWrite := if writable then round.readyWrite ||| bit else round.readyWrite
    readyCount := if readable ∨ writable then round.readyCount+1 else round.readyCount }

/-- The loop over the descriptors: the round, or what the call returns. -/
def pollRound (net : Peer δ) (sets : FdSets) :
    List ℕ → Round → Prog (Link δ) (Except SocketReply Round)
  | [],round => pure (.ok round)
  | fd::fds,round =>
    if sets.requested &&& fdBit fd=0 then pollRound net sets fds round
    else match socketSlot round.ctx fd with
      | none => pure (.error (socketFail round.ctx clSocketEbadf))
      | some slot =>
        if slot.handle=0 then
          pure (.error (socketFailFd round.ctx fd slot clSocketEnotconn))
        else do
          let polled ← clNetPoll net slot.handle
          match polled with
          | .error code => pure (.error (netFail round.ctx fd slot code))
          | .ok flags => pollRound net sets fds (noteFlags sets fd slot flags round)

/-- What a select returns and leaves behind. -/
structure SelectReply where
  /-- The result. -/
  ret : ℤ
  /-- The context. -/
  ctx : SocketContext
  /-- The sets. -/
  sets : FdSets

/-- The loop over the attempts. -/
def pollRounds (net : Peer δ) (sets : FdSets) (fds : List ℕ) :
    ℕ → SocketContext → Prog (Link δ) SelectReply
  | 0,ctx => pure ⟨0,{ ctx with lastError := 0 },sets.zero⟩
  | attempts+1,ctx => do
    let polled ← pollRound net sets fds ⟨ctx,0,0,0⟩
    match polled with
    | .error reply => pure ⟨reply.ret,reply.ctx,sets.zero⟩
    | .ok round =>
      if round.readyCount≠0 then
        pure ⟨round.readyCount,{ round.ctx with lastError := 0 },
          { read := sets.read.map fun _ => ⟨round.readyRead⟩
            write := sets.write.map fun _ => ⟨round.readyWrite⟩
            except := clFdZero sets.except }⟩
      else pollRounds net sets fds attempts round.ctx

/-- The descriptors from one to `max_fd`. -/
def polledFds (nfds : ℤ) : List ℕ :=
  let maxFd := nfds-1
  List.range' 1 (if clSocketFdSetsize< maxFd then clSocketFdSetsize else maxFd).toNat

/-- The function `cl_socket_select`. -/
def clSocketSelect (net : Peer δ) (ctx : SocketContext) (nfds : ℤ) (sets : FdSets)
    (pollAttempts : UInt32) : Prog (Link δ) SelectReply :=
  if nfds<0 then
    let reply := socketFail ctx clSocketEinval
    pure ⟨reply.ret,reply.ctx,sets⟩
  else if sets.requested=0 ∨ nfds=0 then pure ⟨0,ctx,sets.zero⟩
  else pollRounds net sets (polledFds nfds) (atLeastOne pollAttempts) ctx

/-- A bit of a descriptor is set. -/
def Holds (bits : UInt32) (fd : ℤ) : Prop := bits &&& fdBit fd≠0

instance (bits : UInt32) (fd : ℤ) : Decidable (Holds bits fd) :=
  inferInstanceAs (Decidable (bits &&& fdBit fd≠0))

/-- The descriptor is requested in one of the sets. -/
def FdSets.asks (sets : FdSets) (fd : ℤ) : Bool :=
  clFdIsset fd sets.read || clFdIsset fd sets.write || clFdIsset fd sets.except

/-- A poll of a descriptor. -/
structure FdPoll where
  /-- The descriptor. -/
  fd : ℕ
  /-- Its handle. -/
  handle : UInt16
  /-- The flags. -/
  reply : Except ℤ UInt32

/-- The polls that lead from one state of the link to another. -/
inductive Polled (net : Peer δ) : Link δ → List FdPoll → Link δ → Prop where
  /-- No poll. -/
  | nil (s : Link δ) : Polled net s [] s
  /-- A poll, and the polls behind it. -/
  | cons {s t u : Link δ} {p : FdPoll} {polls : List FdPoll} :
      clNetPoll net p.handle s=(some p.reply,t) → Polled net t polls u →
      Polled net s (p::polls) u

/-- The poll reports a flag. -/
def FdPoll.reports (flag : UInt32) (p : FdPoll) : Bool :=
  match p.reply with
  | .ok flags => flags &&& flag≠0
  | .error _ => false

/-- The poll reports a descriptor ready for what was requested. -/
def FdSets.ready (sets : FdSets) (p : FdPoll) : Bool :=
  clFdIsset p.fd sets.read && p.reports clpNetSocketFlagReadable ||
    clFdIsset p.fd sets.write && p.reports clpNetSocketFlagWritable

section Bits

variable {bits : UInt32} {fd j : ℤ}

theorem fdBit_out (h : ¬(0<fd ∧ fd≤32)) : fdBit fd=0 := by
  have hout : fd≤0 ∨ clSocketFdSetsize<fd := by
    unfold clSocketFdSetsize
    omega
  unfold fdBit
  rw [if_pos hout]

/-- A descriptor in a set is one of the thirty-two. -/
theorem Holds.range (h : Holds bits fd) : 0<fd ∧ fd≤32 := by
  by_contra hout
  apply h
  rw [fdBit_out hout,UInt32.and_zero]

theorem not_holds_zero : ¬Holds 0 fd := fun h => h UInt32.zero_and

/-- The bits of different descriptors are different. -/
theorem fdBit_and (hfd : 0<fd ∧ fd≤32) (hj : 0<j ∧ j≤32) : fdBit fd &&& fdBit j≠0 ↔ fd=j := by
  have hbits : ∀ a<33,∀ b<33,0<a → 0<b →
      (fdBit (a : ℕ) &&& fdBit (b : ℕ)≠0 ↔ a=b) := by decide +kernel
  have h := hbits fd.toNat (by omega) j.toNat (by omega) (by omega) (by omega)
  rw [Int.toNat_of_nonneg hfd.1.le,Int.toNat_of_nonneg hj.1.le] at h
  rw [h]
  omega

theorem fdBit_ne_zero (hfd : 0<fd ∧ fd≤32) : fdBit fd≠0 := by
  intro hzero
  refine (fdBit_and hfd hfd).mpr rfl ?_
  rw [hzero,UInt32.zero_and]

theorem and_or_right (a b c : UInt32) : (a ||| b) &&& c=a &&& c ||| b &&& c := by
  rw [← UInt32.toNat_inj,UInt32.toNat_and,UInt32.toNat_or,UInt32.toNat_or,UInt32.toNat_and,
    UInt32.toNat_and,Nat.and_or_distrib_right]

/-- Setting a bit adds a descriptor. -/
theorem holds_or (hfd : 0<fd ∧ fd≤32) : Holds (bits ||| fdBit fd) j ↔ Holds bits j ∨ fd=j := by
  by_cases hj : 0<j ∧ j≤32
  · unfold Holds
    rw [and_or_right,← fdBit_and hfd hj,Ne,UInt32.or_eq_zero_iff]
    exact not_and_or
  · constructor
    · intro h
      exact absurd h.range hj
    · rintro (h | rfl)
      · exact absurd h.range hj
      · exact absurd hfd hj

theorem clFdIsset_some {set : FdSet} : clFdIsset fd (some set)=true ↔ Holds set.bits fd := by
  unfold clFdIsset
  rw [Bool.and_eq_true,decide_eq_true_iff,decide_eq_true_iff]
  constructor
  · exact fun h => h.2
  · intro h
    refine ⟨fun hzero => h ?_,h⟩
    rw [hzero,UInt32.and_zero]

theorem clFdIsset_zero (set : Option FdSet) : clFdIsset fd (clFdZero set)=false := by
  cases set with
  | none => rfl
  | some set => exact Bool.eq_false_iff.mpr fun h => not_holds_zero (clFdIsset_some.mp h)

/-- Clearing a bit removes a descriptor. -/
theorem holds_and_not (hfd : 0<fd ∧ fd≤32) :
    Holds (bits &&& ~~~fdBit fd) j ↔ Holds bits j ∧ fd≠j := by
  by_cases hj : 0<j ∧ j≤32
  · have hbits : ∀ a<33,∀ b<33,0<a → 0<b →
        ~~~fdBit (a : ℕ) &&& fdBit (b : ℕ)=if a=b then 0 else fdBit (b : ℕ) := by
      decide +kernel
    have h := hbits fd.toNat (by omega) j.toNat (by omega) (by omega) (by omega)
    rw [Int.toNat_of_nonneg hfd.1.le,Int.toNat_of_nonneg hj.1.le] at h
    unfold Holds
    rw [UInt32.and_assoc,h]
    by_cases heq : fd=j
    · rw [if_pos (congrArg Int.toNat heq),UInt32.and_zero]
      exact iff_of_false (fun h' => h' rfl) fun h' => h'.2 heq
    · rw [if_neg (by omega),and_iff_left heq]
  · exact iff_of_false (fun h => hj h.range) fun h => hj h.1.range

/-- What `cl_fd_set` adds to a set that is there. -/
theorem clFdIsset_set {set : FdSet} :
    clFdIsset j (clFdSet fd (some set))=true ↔
      clFdIsset j (some set)=true ∨ (0<fd ∧ fd≤32) ∧ fd=j := by
  by_cases hfd : 0<fd ∧ fd≤32
  · unfold clFdSet
    rw [if_neg (fdBit_ne_zero hfd),Option.map_some,clFdIsset_some,clFdIsset_some,holds_or hfd,
      and_iff_right hfd]
  · unfold clFdSet
    rw [if_pos (fdBit_out hfd),or_iff_left fun h => hfd h.1]

/-- What `cl_fd_clr` leaves in a set. -/
theorem clFdIsset_clr {set : FdSet} :
    clFdIsset j (clFdClr fd (some set))=true ↔ clFdIsset j (some set)=true ∧ fd≠j := by
  by_cases hfd : 0<fd ∧ fd≤32
  · unfold clFdClr
    rw [if_neg (fdBit_ne_zero hfd),Option.map_some,clFdIsset_some,clFdIsset_some,holds_and_not hfd]
  · unfold clFdClr
    rw [if_pos (fdBit_out hfd),iff_self_and]
    rintro h rfl
    exact hfd (clFdIsset_some.mp h).range

/-- The bits of a request are its descriptors. -/
theorem holds_requestedBits {set : Option FdSet} :
    Holds (requestedBits set) fd ↔ clFdIsset fd set=true := by
  cases set with
  | none => exact ⟨fun h => absurd h not_holds_zero,fun h => (by cases h)⟩
  | some set => exact clFdIsset_some.symm

theorem holds_requested {sets : FdSets} : Holds sets.requested fd ↔ sets.asks fd=true := by
  unfold FdSets.asks FdSets.requested
  rw [Bool.or_eq_true,Bool.or_eq_true,← holds_requestedBits,← holds_requestedBits,
    ← holds_requestedBits]
  unfold Holds
  rw [and_or_right,and_or_right,Ne,UInt32.or_eq_zero_iff,UInt32.or_eq_zero_iff,not_and_or,
    not_and_or]

/-- A requested descriptor is one of the thirty-two. -/
theorem asks_range {sets : FdSets} (h : sets.asks fd=true) : 0<fd ∧ fd≤32 :=
  (holds_requested.mpr h).range

end Bits

section Codes

variable {σ α β : Type}

/-- The codes that a program returns are negative. -/
def Negative (p : Prog σ (Except ℤ α)) : Prop :=
  ∀ s code t,p s=(some (.error code),t) → code<0

theorem negative_ok (a : α) : Negative (pure (.ok a) : Prog σ (Except ℤ α)) := by
  intro s code t h
  cases h

theorem negative_error {code : ℤ} (hcode : code<0) :
    Negative (pure (.error code) : Prog σ (Except ℤ α)) := by
  intro s code' t h
  cases h
  exact hcode

/-- The codes of a sequence are those of its last part. -/
theorem Negative.bind {p : Prog σ β} {f : β → Prog σ (Except ℤ α)} (hf : ∀ b,Negative (f b)) :
    Negative (p >>= f) := by
  intro s code t h
  rcases hp : p s with ⟨_ | b,u⟩
  · rw [bind_stuck hp] at h
    cases h
  · rw [bind_run hp] at h
    exact hf b u code t h

theorem Negative.ite {c : Prop} [Decidable c] {p q : Prog σ (Except ℤ α)} (hp : Negative p)
    (hq : Negative q) : Negative (if c then p else q) := by
  split
  · exact hp
  · exact hq

theorem Negative.andThen {p : Prog (Link δ) (Except ℤ β)}
    {f : β → Prog (Link δ) (Except ℤ α)} (hp : Negative p) (hf : ∀ b,Negative (f b)) :
    Negative (andThen p f) := by
  intro s code t h
  unfold ClientExchange.andThen at h
  rcases hrun : p s with ⟨_ | result,u⟩
  · rw [bind_stuck hrun] at h
    cases h
  · rw [bind_run hrun] at h
    cases result with
    | error first =>
      cases h
      exact hp s code t hrun
    | ok b => exact hf b u code t h

/-- The codes of a wait for an answer are negative. -/
theorem negative_readResponseFrom (transport : Transport δ) (channel opcode : UInt8)
    (seq : UInt16) (attempts : ℕ) :
    Negative (readResponseFrom transport channel opcode seq attempts) := by
  have hbad : Negative (badPacket >>= fun _ => pure (.error (-2)) :
      Prog (Link δ) (Except ℤ ClpHeader)) :=
    .bind fun _ => negative_error (by decide)
  have hgood : ∀ header : ClpHeader,Negative (acceptResponse header >>= fun _ =>
      pure (.ok header) : Prog (Link δ) (Except ℤ ClpHeader)) :=
    fun header => .bind fun _ => negative_ok header
  induction attempts with
  | zero => exact hbad
  | succ attempts ih =>
    refine Negative.bind fun first => ih.ite ((hbad.ite (hgood _)).ite (hbad.ite ?_))
    refine Negative.bind fun w1 => Negative.bind fun w2 => Negative.bind fun w3 => ?_
    split
    · exact (hgood _).ite hbad
    · exact hbad

theorem negative_commandAnswer (transport : Transport δ) (channel opcode : UInt8)
    (chunks : List (List UInt8)) : Negative (commandAnswer transport channel opcode chunks) := by
  unfold commandAnswer
  split
  · exact negative_error (by decide)
  · refine Negative.bind fun seq => Negative.bind fun _ => Negative.bind fun _ => ?_
    exact Negative.bind fun _ => negative_readResponseFrom transport channel opcode seq 9

/-- The code of an answer that is not the expected one is negative. -/
theorem responseError_neg (response : ClpHeader) : responseError response<0 := by
  unfold responseError
  split
  · decide
  · next h =>
    unfold WireCommands.clClientStatusError
    rw [if_neg h]
    omega

/-- The codes of a poll are negative. -/
theorem negative_clNetPoll (net : Peer δ) (handle : UInt16) :
    Negative (clNetPoll net handle) := by
  refine (negative_error (by decide)).ite ((negative_error (by decide)).ite ?_)
  refine (negative_commandAnswer _ _ _ _).andThen fun response => ?_
  refine Negative.ite ?_ ?_
  · exact Negative.bind fun payload => negative_ok _
  · exact Negative.bind fun _ => negative_error (responseError_neg response)

end Codes

/-- A descriptor without what a poll changes. -/
def bare (slot : SocketFd) : SocketFd := { slot with flags := 0, lastError := 0 }

/-- The tables are the same but for the flags and the errors. -/
def SameTable (ctx ctx' : SocketContext) : Prop := ctx'.fds.map bare=ctx.fds.map bare

/-- The poll is one of a requested descriptor, with the handle that the table has. -/
structure Asked (ctx : SocketContext) (sets : FdSets) (fds : List ℕ) (p : FdPoll) : Prop where
  /-- The descriptor is one of those looked at. -/
  mem : p.fd∈fds
  /-- It is requested. -/
  asks : sets.asks p.fd=true
  /-- The handle is that of the descriptor. -/
  handle : (socketSlot ctx p.fd).map SocketFd.handle=some p.handle

/-- A round that ended without an error. -/
structure Completed (sets : FdSets) (fds : List ℕ) (round : Round) (polls : List FdPoll)
    (after : Round) : Prop where
  /-- The requested descriptors were polled in order. -/
  polled : polls.map FdPoll.fd=fds.filter fun fd : ℕ => sets.asks fd
  /-- Each poll was answered. -/
  answered : ∀ p∈polls,∃ flags,p.reply=.ok flags
  /-- The table. -/
  table : SameTable round.ctx after.ctx
  /-- What is readable. -/
  read : ∀ j,Holds after.readyRead j ↔ Holds round.readyRead j ∨
    ∃ p∈polls,p.fd=j ∧ clFdIsset p.fd sets.read=true ∧ p.reports clpNetSocketFlagReadable=true
  /-- What is writable. -/
  write : ∀ j,Holds after.readyWrite j ↔ Holds round.readyWrite j ∨
    ∃ p∈polls,p.fd=j ∧ clFdIsset p.fd sets.write=true ∧ p.reports clpNetSocketFlagWritable=true
  /-- How many descriptors are ready. -/
  count : after.readyCount=round.readyCount+polls.countP sets.ready

section Rounds

variable {net : Peer δ} {sets : FdSets} {fds : List ℕ} {fd : ℕ} {ctx ctx' : SocketContext}
  {slot : SocketFd} {round after : Round} {polls : List FdPoll} {s t u : Link δ}

theorem Polled.append {first second : List FdPoll} (h : Polled net s first t)
    (h' : Polled net t second u) : Polled net s (first++second) u := by
  induction h with
  | nil => exact h'
  | cons hcall _ ih => exact .cons hcall (ih h')

/-- The handles of such tables are the same. -/
theorem SameTable.handle (h : SameTable ctx ctx') (fd : ℤ) :
    (socketSlot ctx' fd).map SocketFd.handle=(socketSlot ctx fd).map SocketFd.handle := by
  have hlength : ctx'.fds.length=ctx.fds.length := by
    have hmap := congrArg List.length h
    rwa [List.length_map,List.length_map] at hmap
  have hget : (ctx'.fds[fd.toNat-1]?).map bare=(ctx.fds[fd.toNat-1]?).map bare := by
    rw [← List.getElem?_map,← List.getElem?_map]
    exact congrArg (fun slots => slots[fd.toNat-1]?) h
  have hfilter : ∀ o o' : Option SocketFd,o'.map bare=o.map bare →
      (o'.filter fun slot => slot.used).map SocketFd.handle=
        (o.filter fun slot => slot.used).map SocketFd.handle := by
    intro o o' hsame
    rcases o with _ | a <;> rcases o' with _ | b
    · rfl
    · cases hsame
    · cases hsame
    · have hbare : bare b=bare a := Option.some.inj hsame
      have hused : (bare b).used=(bare a).used := congrArg SocketFd.used hbare
      have hhandle : (bare b).handle=(bare a).handle := congrArg SocketFd.handle hbare
      dsimp only [bare] at hused hhandle
      rw [Option.filter_some,Option.filter_some,hused]
      split
      · rw [Option.map_some,Option.map_some,hhandle]
      · rfl
  unfold socketSlot
  rw [hlength]
  split
  · rfl
  · exact hfilter _ _ hget

theorem Asked.of_sameTable {p : FdPoll} (htable : SameTable ctx ctx')
    (h : Asked ctx' sets fds p) : Asked ctx sets fds p :=
  ⟨h.mem,h.asks,(htable.handle p.fd).symm.trans h.handle⟩

/-- Storing the flags leaves the rest of the table alone. -/
theorem sameTable_noteFlags (hslot : socketSlot round.ctx fd=some slot) (flags : UInt32) :
    SameTable round.ctx (noteFlags sets fd slot flags round).ctx := by
  obtain ⟨hi,hget,-⟩ := SocketOwnership.socketSlot_some hslot
  change (round.ctx.fds.set ((fd : ℤ).toNat-1) { slot with flags := flags }).map bare=_
  have hin : (fd : ℤ).toNat-1<(round.ctx.fds.map bare).length := by rwa [List.length_map]
  have hbare : bare { slot with flags := flags }=(round.ctx.fds.map bare)[(fd : ℤ).toNat-1] := by
    rw [List.getElem_map,hget]
    rfl
  rw [List.map_set,hbare,List.set_getElem_self]

/-- What a report adds to the bits. -/
theorem holds_noted {set : Option FdSet} {bits flags flag : UInt32} (hfd : 0<fd ∧ fd≤32)
    (j : ℤ) :
    Holds (if requestedBits set &&& fdBit fd≠0 ∧ flags &&& flag≠0 then bits ||| fdBit fd
      else bits) j ↔ Holds bits j ∨ fd=j ∧ clFdIsset fd set=true ∧ flags &&& flag≠0 := by
  have hrange : 0<(fd : ℤ) ∧ (fd : ℤ)≤32 := by omega
  rw [← holds_requestedBits]
  by_cases h : requestedBits set &&& fdBit fd≠0 ∧ flags &&& flag≠0
  · have hboth : Holds (requestedBits set) fd ∧ flags &&& flag≠0 := h
    rw [if_pos h,holds_or hrange,and_iff_left hboth]
  · have hnot : ¬(fd=j ∧ Holds (requestedBits set) fd ∧ flags &&& flag≠0) := fun h' => h h'.2
    rw [if_neg h,or_iff_left hnot]

/-- A descriptor counts once. -/
theorem noteFlags_count (handle : UInt16) (flags : UInt32) :
    (noteFlags sets fd slot flags round).readyCount=
      round.readyCount+if sets.ready ⟨fd,handle,.ok flags⟩ then 1 else 0 := by
  have hready : sets.ready ⟨fd,handle,.ok flags⟩=true ↔
      Holds (requestedBits sets.read) fd ∧ flags &&& clpNetSocketFlagReadable≠0 ∨
        Holds (requestedBits sets.write) fd ∧ flags &&& clpNetSocketFlagWritable≠0 := by
    unfold FdSets.ready FdPoll.reports
    dsimp only
    rw [Bool.or_eq_true,Bool.and_eq_true,Bool.and_eq_true,decide_eq_true_iff,
      decide_eq_true_iff,holds_requestedBits,holds_requestedBits]
  unfold noteFlags
  by_cases h : sets.ready ⟨fd,handle,.ok flags⟩=true
  · rw [if_pos h]
    exact if_pos (hready.mp h)
  · rw [if_neg h]
    exact if_neg fun h' => h (hready.mpr h')

theorem Completed.nil : Completed sets [] round [] round := by
  have hnone : ∀ (P : FdPoll → Prop),¬∃ p∈([] : List FdPoll),P p := by
    rintro P ⟨p,hp,-⟩
    exact List.not_mem_nil hp
  exact ⟨rfl,fun p hp => absurd hp List.not_mem_nil,rfl,
    fun j => (or_iff_left (hnone _)).symm,fun j => (or_iff_left (hnone _)).symm,rfl⟩

/-- A descriptor that is not requested is passed over. -/
theorem Completed.skip (hasks : ¬sets.asks fd=true) (h : Completed sets fds round polls after) :
    Completed sets (fd::fds) round polls after := by
  refine ⟨?_,h.answered,h.table,h.read,h.write,h.count⟩
  rw [h.polled,List.filter_cons_of_neg (p := fun fd : ℕ => sets.asks fd) hasks]

/-- A requested one is polled. -/
theorem Completed.poll (hfd : 0<fd ∧ fd≤32) (hasks : sets.asks fd=true)
    (hslot : socketSlot round.ctx fd=some slot) {flags : UInt32}
    (h : Completed sets fds (noteFlags sets fd slot flags round) polls after) :
    Completed sets (fd::fds) round (⟨fd,slot.handle,.ok flags⟩::polls) after := by
  have hreports : ∀ flag,(⟨fd,slot.handle,.ok flags⟩ : FdPoll).reports flag=true ↔
      flags &&& flag≠0 := fun flag => decide_eq_true_iff
  constructor
  · rw [List.map_cons,h.polled,List.filter_cons_of_pos (p := fun fd : ℕ => sets.asks fd) hasks]
  · intro p hp
    rcases List.mem_cons.mp hp with rfl | hmem
    · exact ⟨flags,rfl⟩
    · exact h.answered p hmem
  · exact h.table.trans (sameTable_noteFlags hslot flags)
  · intro j
    rw [h.read,List.exists_mem_cons_iff,hreports,← or_assoc]
    exact or_congr_left (holds_noted hfd j)
  · intro j
    rw [h.write,List.exists_mem_cons_iff,hreports,← or_assoc]
    exact or_congr_left (holds_noted hfd j)
  · rw [h.count,noteFlags_count slot.handle,List.countP_cons]
    omega

/-- A round returns, and polls requested descriptors only. -/
theorem pollRound_polls (net : Peer δ) (sets : FdSets) (fds : List ℕ)
    (hfds : ∀ fd∈fds,0<fd ∧ fd≤32) (round : Round) (s : Link δ) :
    ∃ r t polls,pollRound net sets fds round s=(some r,t) ∧ Polled net s polls t ∧
      (∀ p∈polls,Asked round.ctx sets fds p) ∧ (∀ reply,r=.error reply → reply.ret<0) ∧
      ∀ after,r=.ok after → Completed sets fds round polls after := by
  induction fds generalizing round s with
  | nil =>
    refine ⟨_,s,[],rfl,.nil s,fun p hp => absurd hp List.not_mem_nil,fun _ h => (by cases h),
      fun after h => ?_⟩
    cases h
    exact .nil
  | cons fd fds ih =>
    have hfd := hfds fd List.mem_cons_self
    have hrest : ∀ fd∈fds,0<fd ∧ fd≤32 := fun j hj => hfds j (List.mem_cons_of_mem _ hj)
    have hfail : ∀ reply : SocketReply,reply.ret<0 → ∀ (polls : List FdPoll) (t : Link δ),
        Polled net s polls t → (∀ p∈polls,Asked round.ctx sets (fd::fds) p) →
        ∃ r u polls,((some (.error reply),t) : Option (Except SocketReply Round)×Link δ)=
          (some r,u) ∧ Polled net s polls u ∧ (∀ p∈polls,Asked round.ctx sets (fd::fds) p) ∧
          (∀ reply,r=.error reply → reply.ret<0) ∧
          ∀ after,r=.ok after → Completed sets (fd::fds) round polls after := by
      intro reply hneg polls t hpolled hasked
      refine ⟨_,t,polls,rfl,hpolled,hasked,fun other h => ?_,fun _ h => (by cases h)⟩
      cases h
      exact hneg
    unfold pollRound
    by_cases hasks : sets.asks fd=true
    · have hbit : ¬sets.requested &&& fdBit fd=0 := holds_requested.mpr hasks
      rw [if_neg hbit]
      cases hslot : socketSlot round.ctx fd with
      | none =>
        exact hfail (socketFail round.ctx clSocketEbadf) (by decide : -clSocketEbadf<0) [] s
          (.nil s) fun p hp => absurd hp List.not_mem_nil
      | some slot =>
        dsimp only
        by_cases hhandle : slot.handle=0
        · rw [if_pos hhandle]
          exact hfail (socketFailFd round.ctx fd slot clSocketEnotconn)
            (by decide : -clSocketEnotconn<0) [] s (.nil s) fun p hp => absurd hp List.not_mem_nil
        · rw [if_neg hhandle]
          obtain ⟨reply,t,hpoll⟩ := clNetPoll_returns net slot.handle s
          have hasked : Asked round.ctx sets (fd::fds) ⟨fd,slot.handle,reply⟩ := by
            refine ⟨List.mem_cons_self,hasks,?_⟩
            dsimp only
            rw [hslot]
            rfl
          rw [bind_run hpoll]
          cases reply with
          | error code =>
            refine hfail (netFail round.ctx fd slot code) (negative_clNetPoll _ _ _ _ _ hpoll)
              [⟨fd,slot.handle,.error code⟩] t (.cons hpoll (.nil t)) fun p hp => ?_
            rw [List.mem_singleton.mp hp]
            exact hasked
          | ok flags =>
            obtain ⟨r,u,polls,hrun,hpolled,hall,hneg,hdone⟩ :=
              ih hrest (noteFlags sets fd slot flags round) t
            refine ⟨r,u,_,hrun,.cons hpoll hpolled,?_,hneg,fun after h =>
              .poll hfd hasks hslot (hdone after h)⟩
            intro p hp
            rcases List.mem_cons.mp hp with rfl | hmem
            · exact hasked
            · have h := (hall p hmem).of_sameTable (sameTable_noteFlags hslot flags)
              exact ⟨List.mem_cons_of_mem _ h.mem,h.asks,h.handle⟩
    · have hbit : sets.requested &&& fdBit fd=0 := by
        by_contra h
        exact hasks (holds_requested.mp h)
      rw [if_pos hbit]
      obtain ⟨r,t,polls,hrun,hpolled,hall,hneg,hdone⟩ := ih hrest round s
      refine ⟨r,t,polls,hrun,hpolled,fun p hp => ?_,hneg,fun after h => .skip hasks (hdone after h)⟩
      exact ⟨List.mem_cons_of_mem _ (hall p hp).mem,(hall p hp).asks,(hall p hp).handle⟩

/-- The count of a round is the number of descriptors that are ready. -/
theorem Completed.countP_ready (hfds : fds.Nodup) {ctx : SocketContext}
    (h : Completed sets fds ⟨ctx,0,0,0⟩ polls after) :
    after.readyCount=(List.range' 1 32).countP
      fun fd : ℕ => Holds after.readyRead fd ∨ Holds after.readyWrite fd := by
  have hnodup : (polls.map FdPoll.fd).Nodup := by
    rw [h.polled]
    exact hfds.filter _
  have hread : ∀ j,Holds after.readyRead j ↔ ∃ p∈polls,p.fd=j ∧
      clFdIsset p.fd sets.read=true ∧ p.reports clpNetSocketFlagReadable=true := fun j =>
    (h.read j).trans (or_iff_right not_holds_zero)
  have hwrite : ∀ j,Holds after.readyWrite j ↔ ∃ p∈polls,p.fd=j ∧
      clFdIsset p.fd sets.write=true ∧ p.reports clpNetSocketFlagWritable=true := fun j =>
    (h.write j).trans (or_iff_right not_holds_zero)
  have hready : ∀ p,sets.ready p=true ↔
      clFdIsset p.fd sets.read=true ∧ p.reports clpNetSocketFlagReadable=true ∨
      clFdIsset p.fd sets.write=true ∧ p.reports clpNetSocketFlagWritable=true := by
    intro p
    unfold FdSets.ready
    rw [Bool.or_eq_true,Bool.and_eq_true,Bool.and_eq_true]
  -- a descriptor is polled once, so it is ready by its own poll
  have hsame : ∀ p∈polls,∀ q∈polls,((q.fd : ℕ) : ℤ)=(p.fd : ℕ) → q=p := fun p hp q hq heq =>
    List.inj_on_of_nodup_map hnodup hq hp (Int.ofNat_inj.mp heq)
  have hpolls : ∀ p∈polls,(sets.ready p=true ↔
      decide (Holds after.readyRead p.fd ∨ Holds after.readyWrite p.fd)=true) := by
    intro p hp
    rw [decide_eq_true_iff,hready,hread,hwrite]
    constructor
    · rintro (hr | hw)
      · exact .inl ⟨p,hp,rfl,hr⟩
      · exact .inr ⟨p,hp,rfl,hw⟩
    · rintro (⟨q,hq,heq,hr⟩ | ⟨q,hq,heq,hw⟩)
      · rw [hsame p hp q hq heq] at hr
        exact .inl hr
      · rw [hsame p hp q hq heq] at hw
        exact .inr hw
  have hperm : ((polls.map FdPoll.fd).filter fun fd : ℕ =>
        Holds after.readyRead fd ∨ Holds after.readyWrite fd).Perm
      ((List.range' 1 32).filter fun fd : ℕ =>
        Holds after.readyRead fd ∨ Holds after.readyWrite fd) := by
    refine (List.perm_ext_iff_of_nodup (hnodup.filter _) ((List.nodup_range' 1).filter _)).mpr ?_
    intro fd
    rw [List.mem_filter,List.mem_filter,decide_eq_true_iff,and_congr_left_iff]
    intro hholds
    have hrange : 0<(fd : ℤ) ∧ (fd : ℤ)≤32 := hholds.elim Holds.range Holds.range
    have hmem : ∃ p∈polls,(p.fd : ℤ)=fd := by
      rcases hholds with hr | hw
      · obtain ⟨p,hp,heq,-⟩ := (hread fd).mp hr
        exact ⟨p,hp,heq⟩
      · obtain ⟨p,hp,heq,-⟩ := (hwrite fd).mp hw
        exact ⟨p,hp,heq⟩
    obtain ⟨p,hp,heq⟩ := hmem
    refine iff_of_true (List.mem_map.mpr ⟨p,hp,Int.ofNat_inj.mp heq⟩) ?_
    rw [List.mem_range'_1]
    omega
  rw [h.count,Nat.zero_add,List.countP_congr hpolls]
  rw [List.countP_eq_length_filter (l := List.range' 1 32),← hperm.length_eq,
    ← List.countP_eq_length_filter,List.countP_map]
  rfl

end Rounds

/-- What a call returns is exactly what a round reported: the round polled each requested
descriptor below the bound once, and the sets have those that it reported ready. -/
structure Exact (sets : FdSets) (nfds : ℤ) (last : List FdPoll) (r : SelectReply) : Prop where
  /-- The descriptors that the round polled. -/
  polled : ∀ fd : ℤ,(∃ p∈last,p.fd=fd) ↔ sets.asks fd=true ∧ fd<nfds
  /-- Each of them once. -/
  once : (last.map FdPoll.fd).Nodup
  /-- Each poll was answered. -/
  answered : ∀ p∈last,∃ flags,p.reply=.ok flags
  /-- The readable descriptors. -/
  read : ∀ fd,clFdIsset fd r.sets.read=true ↔ clFdIsset fd sets.read=true ∧ fd<nfds ∧
    ∃ p∈last,p.fd=fd ∧ p.reports clpNetSocketFlagReadable=true
  /-- The writable descriptors. -/
  write : ∀ fd,clFdIsset fd r.sets.write=true ↔ clFdIsset fd sets.write=true ∧ fd<nfds ∧
    ∃ p∈last,p.fd=fd ∧ p.reports clpNetSocketFlagWritable=true
  /-- There are no exceptions. -/
  except : r.sets.except=clFdZero sets.except
  /-- The result is the number of descriptors in at least one set. -/
  count : r.ret=(List.range' 1 32).countP
    fun fd : ℕ => clFdIsset fd r.sets.read || clFdIsset fd r.sets.write

section Calls

variable {net : Peer δ} {sets : FdSets} {nfds : ℤ} {ctx : SocketContext} {after : Round}
  {last : List FdPoll} {r : SelectReply}

/-- The descriptors that are looked at. -/
theorem mem_polledFds {fd : ℕ} : fd∈polledFds nfds ↔ 0<fd ∧ (fd : ℤ)<nfds ∧ fd≤32 := by
  unfold polledFds clSocketFdSetsize
  dsimp only
  rw [List.mem_range'_1]
  split <;> omega

theorem nodup_polledFds : (polledFds nfds).Nodup := List.nodup_range' 1

/-- The descriptors of a round are the requested ones below the bound. -/
theorem Completed.polled_iff {round : Round}
    (h : Completed sets (polledFds nfds) round last after) (fd : ℤ) :
    (∃ p∈last,p.fd=fd) ↔ sets.asks fd=true ∧ fd<nfds := by
  have hmem : ∀ j : ℕ,(∃ p∈last,p.fd=j) ↔ j∈polledFds nfds ∧ sets.asks j=true := by
    intro j
    rw [← List.mem_map,h.polled,List.mem_filter]
  constructor
  · rintro ⟨p,hp,rfl⟩
    obtain ⟨hin,hasks⟩ := (hmem p.fd).mp ⟨p,hp,rfl⟩
    exact ⟨hasks,(mem_polledFds.mp hin).2.1⟩
  · rintro ⟨hasks,hlt⟩
    have hrange := asks_range hasks
    lift fd to ℕ using hrange.1.le
    obtain ⟨p,hp,heq⟩ := (hmem fd).mpr ⟨mem_polledFds.mpr ⟨by omega,hlt,by omega⟩,hasks⟩
    exact ⟨p,hp,congrArg Nat.cast heq⟩

/-- A round after which the sets have its bits makes the result exact. -/
theorem Completed.exact (h : Completed sets (polledFds nfds) ⟨ctx,0,0,0⟩ last after)
    (hread : ∀ fd,clFdIsset fd r.sets.read=true ↔ Holds after.readyRead fd)
    (hwrite : ∀ fd,clFdIsset fd r.sets.write=true ↔ Holds after.readyWrite fd)
    (hexcept : r.sets.except=clFdZero sets.except) (hret : r.ret=after.readyCount) :
    Exact sets nfds last r := by
  have hbelow : ∀ p∈last,∀ fd : ℤ,p.fd=fd → fd<nfds := fun p hp fd heq =>
    ((h.polled_iff fd).mp ⟨p,hp,heq⟩).2
  refine ⟨h.polled_iff,?_,h.answered,?_,?_,hexcept,?_⟩
  · rw [h.polled]
    exact nodup_polledFds.filter _
  · intro fd
    rw [hread,h.read,or_iff_right not_holds_zero]
    constructor
    · rintro ⟨p,hp,rfl,hset,hreports⟩
      exact ⟨hset,hbelow p hp _ rfl,p,hp,rfl,hreports⟩
    · rintro ⟨hset,-,p,hp,rfl,hreports⟩
      exact ⟨p,hp,rfl,hset,hreports⟩
  · intro fd
    rw [hwrite,h.write,or_iff_right not_holds_zero]
    constructor
    · rintro ⟨p,hp,rfl,hset,hreports⟩
      exact ⟨hset,hbelow p hp _ rfl,p,hp,rfl,hreports⟩
    · rintro ⟨hset,-,p,hp,rfl,hreports⟩
      exact ⟨p,hp,rfl,hset,hreports⟩
  · rw [hret,h.countP_ready nodup_polledFds]
    congr 1
    refine List.countP_congr fun fd _ => ?_
    rw [decide_eq_true_iff,Bool.or_eq_true,hread,hwrite]

/-- In a round without a ready descriptor no bit is set. -/
theorem Completed.none_ready (h : Completed sets (polledFds nfds) ⟨ctx,0,0,0⟩ last after)
    (hcount : after.readyCount=0) (fd : ℤ) :
    ¬Holds after.readyRead fd ∧ ¬Holds after.readyWrite fd := by
  have hzero := (h.countP_ready nodup_polledFds).symm.trans hcount
  rw [← not_or]
  intro hholds
  have hrange : 0<fd ∧ fd≤32 := hholds.elim Holds.range Holds.range
  lift fd to ℕ using hrange.1.le
  refine List.countP_eq_zero.mp hzero fd ?_ (decide_eq_true hholds)
  rw [List.mem_range'_1]
  omega

/-- The bits of a round in the place of a set. -/
theorem clFdIsset_map (set : Option FdSet) {bits : UInt32}
    (h : ∀ fd,Holds bits fd → clFdIsset fd set=true) (fd : ℤ) :
    clFdIsset fd (set.map fun _ => ⟨bits⟩)=true ↔ Holds bits fd := by
  cases set with
  | none => exact ⟨fun h' => (by cases h'),fun hholds => (by cases h fd hholds)⟩
  | some set => exact clFdIsset_some

/-- A round ends the loop, or no descriptor was ready and the loop goes on. -/
theorem pollRounds_succ (net : Peer δ) (sets : FdSets) (nfds : ℤ) (attempts : ℕ)
    (ctx : SocketContext) (s : Link δ) :
    ∃ t polls,Polled net s polls t ∧ (∀ p∈polls,Asked ctx sets (polledFds nfds) p) ∧
      ((∃ r,pollRounds net sets (polledFds nfds) (attempts+1) ctx s=(some r,t) ∧
          (r.ret≤0 → r.sets=sets.zero) ∧ (0≤ r.ret → Exact sets nfds polls r)) ∨
        ∃ after,pollRounds net sets (polledFds nfds) (attempts+1) ctx s=
            pollRounds net sets (polledFds nfds) attempts after.ctx t ∧
          after.readyCount=0 ∧ Completed sets (polledFds nfds) ⟨ctx,0,0,0⟩ polls after) := by
  have hfds : ∀ fd∈polledFds nfds,0<fd ∧ fd≤32 := fun fd hfd =>
    ⟨(mem_polledFds.mp hfd).1,(mem_polledFds.mp hfd).2.2⟩
  obtain ⟨result,t,polls,hrun,hpolled,hasked,hneg,hdone⟩ :=
    pollRound_polls net sets (polledFds nfds) hfds ⟨ctx,0,0,0⟩ s
  refine ⟨t,polls,hpolled,hasked,?_⟩
  rw [show pollRounds net sets (polledFds nfds) (attempts+1) ctx s=_ from bind_run hrun]
  cases result with
  | error reply =>
    refine .inl ⟨_,rfl,fun _ => rfl,fun h => ?_⟩
    exact absurd (hneg reply rfl) (not_lt.mpr h)
  | ok after =>
    have hcompleted := hdone after rfl
    dsimp only
    by_cases hcount : after.readyCount≠0
    · rw [if_pos hcount]
      refine .inl ⟨_,rfl,fun h => ?_,fun _ => hcompleted.exact ?_ ?_ rfl rfl⟩
      · dsimp only at h
        omega
      · refine clFdIsset_map _ fun fd hholds => ?_
        obtain ⟨p,-,rfl,hset,-⟩ := ((hcompleted.read fd).mp hholds).resolve_left not_holds_zero
        exact hset
      · refine clFdIsset_map _ fun fd hholds => ?_
        obtain ⟨p,-,rfl,hset,-⟩ := ((hcompleted.write fd).mp hholds).resolve_left not_holds_zero
        exact hset
    · rw [if_neg hcount]
      exact .inr ⟨after,rfl,not_not.mp hcount,hcompleted⟩

/-- The loop over the attempts returns with the sets of its last round, or empties them. -/
theorem pollRounds_polls (net : Peer δ) (sets : FdSets) (nfds : ℤ) (attempts : ℕ)
    (ctx : SocketContext) (s : Link δ) :
    ∃ r t polls,pollRounds net sets (polledFds nfds) (attempts+1) ctx s=(some r,t) ∧
      Polled net s polls t ∧ (∀ p∈polls,Asked ctx sets (polledFds nfds) p) ∧
      (r.ret≤0 → r.sets=sets.zero) ∧
      (0≤ r.ret → ∃ earlier last,polls=earlier++last ∧ Exact sets nfds last r) := by
  induction attempts generalizing ctx s with
  | zero =>
    obtain ⟨t,polls,hpolled,hasked,⟨r,hrun,hzero,hexact⟩ | ⟨after,hrun,hcount,hcompleted⟩⟩ :=
      pollRounds_succ net sets nfds 0 ctx s
    · exact ⟨r,t,polls,hrun,hpolled,hasked,hzero,fun h => ⟨[],polls,rfl,hexact h⟩⟩
    · have hnone := hcompleted.none_ready hcount
      refine ⟨_,t,polls,hrun,hpolled,hasked,fun _ => rfl,fun _ => ⟨[],polls,rfl,?_⟩⟩
      refine hcompleted.exact (fun fd => ?_) (fun fd => ?_) rfl ?_
      · exact iff_of_false (Bool.eq_false_iff.mp (clFdIsset_zero _)) (hnone fd).1
      · exact iff_of_false (Bool.eq_false_iff.mp (clFdIsset_zero _)) (hnone fd).2
      · rw [hcount]
        rfl
  | succ attempts ih =>
    obtain ⟨t,polls,hpolled,hasked,⟨r,hrun,hzero,hexact⟩ | ⟨after,hrun,-,hcompleted⟩⟩ :=
      pollRounds_succ net sets nfds (attempts+1) ctx s
    · exact ⟨r,t,polls,hrun,hpolled,hasked,hzero,fun h => ⟨[],polls,rfl,hexact h⟩⟩
    · obtain ⟨r,u,rest,hrest,hpolls,hall,hzero,hexact⟩ := ih after.ctx t
      refine ⟨r,u,polls++rest,hrun.trans hrest,hpolled.append hpolls,fun p hp => ?_,hzero,
        fun h => ?_⟩
      · rcases List.mem_append.mp hp with hfirst | hlater
        · exact hasked p hfirst
        · exact (hall p hlater).of_sameTable hcompleted.table
      · obtain ⟨earlier,last,hsplit,hlast⟩ := hexact h
        refine ⟨polls++earlier,last,?_,hlast⟩
        rw [hsplit,List.append_assoc]

/-- A call that is given a bound returns. It polls requested descriptors below the bound only,
with the handles of the table. Unless it fails its sets are exactly what its last round
reported, and they are empty after a time-out or an error. A negative bound is refused before
the sets are looked at: they stay as they are, and nothing is polled. -/
theorem select_exact (net : Peer δ) (ctx : SocketContext) (nfds : ℤ) (sets : FdSets)
    (pollAttempts : UInt32) (s : Link δ) :
    ∃ r t polls,clSocketSelect net ctx nfds sets pollAttempts s=(some r,t) ∧
      Polled net s polls t ∧
      (∀ p∈polls,sets.asks p.fd=true ∧ (p.fd : ℤ)<nfds ∧
        (socketSlot ctx p.fd).map SocketFd.handle=some p.handle) ∧
      (0≤nfds → (r.ret≤0 → r.sets=sets.zero) ∧
        (0≤ r.ret → ∃ earlier last,polls=earlier++last ∧ Exact sets nfds last r)) ∧
      (nfds<0 → r.ret= -clSocketEinval ∧ r.sets=sets ∧ polls=[]) := by
  have hnone : ∀ p∈([] : List FdPoll),sets.asks p.fd=true ∧ (p.fd : ℤ)<nfds ∧
      (socketSlot ctx p.fd).map SocketFd.handle=some p.handle :=
    fun p hp => absurd hp List.not_mem_nil
  unfold clSocketSelect
  by_cases hneg : nfds<0
  · rw [if_pos hneg]
    exact ⟨_,s,[],rfl,.nil s,hnone,fun h => absurd hneg (not_lt.mpr h),fun _ => ⟨rfl,rfl,rfl⟩⟩
  · rw [if_neg hneg]
    by_cases hidle : sets.requested=0 ∨ nfds=0
    · rw [if_pos hidle]
      refine ⟨_,s,[],rfl,.nil s,hnone,fun _ => ⟨fun _ => rfl,fun _ => ⟨[],[],rfl,?_⟩⟩,
        fun h => absurd h hneg⟩
      have hfilter : (polledFds nfds).filter (fun fd : ℕ => sets.asks fd)=[] := by
        refine List.filter_eq_nil_iff.mpr fun fd hfd hasks => ?_
        rcases hidle with hzero | rfl
        · have hholds := holds_requested.mpr hasks
          rw [hzero] at hholds
          exact not_holds_zero hholds
        · have hrange := mem_polledFds.mp hfd
          omega
      have hcompleted : Completed sets (polledFds nfds) ⟨ctx,0,0,0⟩ [] ⟨ctx,0,0,0⟩ :=
        { Completed.nil with polled := hfilter.symm }
      refine hcompleted.exact (fun fd => ?_) (fun fd => ?_) rfl rfl
      · exact iff_of_false (Bool.eq_false_iff.mp (clFdIsset_zero _)) not_holds_zero
      · exact iff_of_false (Bool.eq_false_iff.mp (clFdIsset_zero _)) not_holds_zero
    · rw [if_neg hidle]
      obtain ⟨attempts,hattempts⟩ : ∃ attempts,atLeastOne pollAttempts=attempts+1 := by
        refine Nat.exists_eq_succ_of_ne_zero ?_
        rw [atLeastOne_eq]
        omega
      rw [hattempts]
      obtain ⟨r,t,polls,hrun,hpolled,hasked,hzero,hexact⟩ :=
        pollRounds_polls net sets nfds attempts ctx s
      refine ⟨r,t,polls,hrun,hpolled,fun p hp => ?_,fun _ => ⟨hzero,hexact⟩,
        fun h => absurd h hneg⟩
      have h := hasked p hp
      exact ⟨h.asks,(mem_polledFds.mp h.mem).2.1,h.handle⟩

/-- With a negative bound the call fails, and its sets still have their descriptors. -/
theorem select_negative_bound :
    ¬∀ (δ : Type) (net : Peer δ) (ctx : SocketContext) (nfds : ℤ) (sets : FdSets)
      (pollAttempts : UInt32) (s t : Link δ) (r : SelectReply),
      clSocketSelect net ctx nfds sets pollAttempts s=(some r,t) → r.ret<0 →
      r.sets=sets.zero := by
  intro hall
  let sets : FdSets := ⟨clFdSet 1 (some ⟨0⟩),none,some ⟨2⟩⟩
  have hrun : clSocketSelect ClientBoundary.smallPeer (clSocketInit 4) (-1) sets 1
      (StorageBoundary.scriptLink [])=
        (some ⟨-22,{ clSocketInit 4 with lastError := 22 },sets⟩,StorageBoundary.scriptLink []) :=
    rfl
  exact absurd (hall _ _ _ _ _ _ _ _ _ hrun (by decide)) (by decide)

end Calls

end ChisLink.SocketSelect
