import Mathlib.Algebra.GroupWithZero.Nat

/-!
# The clock of the transport

Two cascaded timers of sixteen bits count the ticks and are read one after the other. If a
reading takes less than a period of the lower timer, it is the exact count at one of its
moments, and a wait on it ends when an ideal clock without bounds would end it.
-/

namespace ChisLink.TickClock

/-- The moments of a call to `cl_gba_time_ticks`, in ticks since `cl_gba_time_init`. The last
one counts only if the register is read again. -/
structure Reading where
  /-- The upper register is read. -/
  high : ℕ
  /-- The lower register is read. -/
  low : ℕ
  /-- The upper register is read again. -/
  high2 : ℕ
  /-- The lower register is read again. -/
  low2 : ℕ
  /-- Time does not go back. -/
  ordered : high≤low ∧ low≤high2 ∧ high2≤low2
  /-- The call is over before the lower timer has counted once around. -/
  brief : low2<high+2^16

/-- The register `TM2CNT_L`. -/
def timer2 (ticks : ℕ) : UInt16 := UInt16.ofNat ticks

/-- The register `TM3CNT_L`, which counts how often the other one has overflowed. -/
def timer3 (ticks : ℕ) : UInt16 := UInt16.ofNat (ticks/2^16)

/-- The function `cl_gba_time_ticks`. -/
def clGbaTimeTicks (r : Reading) : UInt32 :=
  let high := timer3 r.high
  let high2 := timer3 r.high2
  if high≠high2 then high2.toUInt32 <<< 16 ||| (timer2 r.low2).toUInt32
  else high.toUInt32 <<< 16 ||| (timer2 r.low).toUInt32

/-- The moment whose count is returned. -/
def Reading.moment (r : Reading) : ℕ := if timer3 r.high≠timer3 r.high2 then r.low2 else r.low

/-- The loop of `cl_gba_sio_transport_xfer32` and `fast_wait`: whether the transfer is done,
or none if the wait goes on after these rounds. Each sees whether the transfer is done and
otherwise reads the clock. -/
def waitDone (timeout startTicks : UInt32) : List (Bool×Reading) → Option Bool
  | [] => none
  | (done,r)::rounds =>
    if done then some true
    else if timeout≠0 ∧ timeout≤ clGbaTimeTicks r-startTicks then some false
    else waitDone timeout startTicks rounds

/-- The wait on a clock without bounds. -/
def idealWait (timeout start : ℕ) : List (Bool×ℕ) → Option Bool
  | [] => none
  | (done,now)::rounds =>
    if done then some true
    else if timeout≠0 ∧ start+timeout≤now then some false
    else idealWait timeout start rounds

/-- Rounds follow each other, and the clock is read again before it could pass the end of the
wait by a whole turn. -/
def Polled (timeout : UInt32) : Reading → List (Bool×Reading) → Prop
  | _,[] => True
  | last,(_,r)::rounds =>
    last.low2≤ r.high ∧ r.low2+timeout.toNat≤last.high+2^32 ∧ Polled timeout r rounds

theorem toNat_joined (high low : UInt16) :
    (high.toUInt32 <<< 16 ||| low.toUInt32).toNat=high.toNat*2^16+low.toNat := by
  have hlow := low.toNat_lt
  have hhigh := high.toNat_lt
  have hshift : high.toNat <<< 16%2^32=high.toNat <<< 16 := by
    rw [Nat.shiftLeft_eq]
    omega
  have hplain : (high.toUInt32 <<< 16 ||| low.toUInt32).toNat=
      high.toNat <<< 16%2^32 ||| low.toNat := by
    rw [UInt32.toNat_or,UInt32.toNat_shiftLeft,UInt16.toNat_toUInt32,UInt16.toNat_toUInt32]
    rfl
  rw [hplain,hshift,← Nat.shiftLeft_add_eq_or_of_lt hlow,Nat.shiftLeft_eq]

/-- The registers of two moments in one period of the lower timer tell the second. -/
theorem toNat_registers {upper lower : ℕ} (h : upper/2^16=lower/2^16) :
    ((timer3 upper).toUInt32 <<< 16 ||| (timer2 lower).toUInt32).toNat=lower%2^32 := by
  rw [toNat_joined]
  unfold timer3 timer2
  rw [UInt16.toNat_ofNat',UInt16.toNat_ofNat',h]
  omega

theorem timer3_ne {a b : ℕ} : timer3 a≠timer3 b ↔ a/2^16%2^16≠b/2^16%2^16 := by
  unfold timer3
  rw [ne_eq,← UInt16.toNat_inj,UInt16.toNat_ofNat',UInt16.toNat_ofNat']

/-- A reading is the count at its moment. -/
theorem toNat_clGbaTimeTicks (r : Reading) : (clGbaTimeTicks r).toNat=r.moment%2^32 := by
  obtain ⟨hlow,hhigh2,hlow2⟩ := r.ordered
  have hbrief := r.brief
  unfold clGbaTimeTicks Reading.moment
  dsimp only
  split
  next h =>
    rw [timer3_ne] at h
    exact toNat_registers (by omega)
  next h =>
    rw [timer3_ne,Decidable.not_not] at h
    exact toNat_registers (by omega)

theorem moment_bounds (r : Reading) : r.high≤ r.moment ∧ r.moment≤ r.low2 := by
  obtain ⟨hlow,hhigh2,hlow2⟩ := r.ordered
  unfold Reading.moment
  split <;> omega

/-- A difference of readings is the time between their moments, up to turns of the clock. -/
theorem elapsed_toNat {start r : Reading} (h : start.moment≤ r.moment)
    (hturn : r.moment<start.moment+2^32) :
    (clGbaTimeTicks r-clGbaTimeTicks start).toNat=r.moment-start.moment := by
  have hstart := (clGbaTimeTicks start).toNat_lt
  rw [UInt32.toNat_sub,toNat_clGbaTimeTicks,toNat_clGbaTimeTicks]
  omega

/-- From any reading on at which the wait was not over. -/
theorem waitDone_from {timeout : UInt32} (start last : Reading) (rounds : List (Bool×Reading))
    (hpolled : Polled timeout last rounds) (hlast : start.moment≤last.moment)
    (hwaits : timeout≠0 → last.moment<start.moment+timeout.toNat) :
    waitDone timeout (clGbaTimeTicks start) rounds=
      idealWait timeout.toNat start.moment (rounds.map fun round => (round.1,round.2.moment)) := by
  induction rounds generalizing last with
  | nil => rfl
  | cons round rounds ih =>
    obtain ⟨done,r⟩ := round
    obtain ⟨hnext,hturn,hrest⟩ := hpolled
    obtain ⟨-,hlast2⟩ := moment_bounds last
    obtain ⟨hfirst,hend⟩ := moment_bounds r
    have hhigh := (moment_bounds last).1
    have hzero : timeout.toNat≠0 ↔ timeout≠0 := by
      rw [ne_eq,ne_eq,← UInt32.toNat_inj]
      rfl
    have hover : (timeout≠0 ∧ timeout≤ clGbaTimeTicks r-clGbaTimeTicks start) ↔
        (timeout.toNat≠0 ∧ start.moment+timeout.toNat≤ r.moment) := by
      rw [hzero]
      refine and_congr_right fun hset => ?_
      have hbefore := hwaits hset
      rw [UInt32.le_iff_toNat_le,elapsed_toNat (by omega) (by omega)]
      omega
    unfold waitDone
    rw [List.map_cons,idealWait]
    simp only [hover]
    split
    · rfl
    split
    · rfl
    next hgoes =>
      refine ih r hrest (by omega) fun hset => ?_
      rw [hzero] at hgoes
      exact Nat.lt_of_not_le fun hle => hgoes ⟨hset,hle⟩

/-- A wait on the timers ends as it would on a clock without bounds, in the same round and
with the same result. -/
theorem waits_are_exact (timeout : UInt32) (start : Reading) (rounds : List (Bool×Reading))
    (hpolled : Polled timeout start rounds) :
    waitDone timeout (clGbaTimeTicks start) rounds=
      idealWait timeout.toNat start.moment (rounds.map fun round => (round.1,round.2.moment)) :=
  waitDone_from start start rounds hpolled (Nat.le_refl _) fun hset => by
    have hzero : timeout.toNat≠0 := fun h => hset (UInt32.toNat_inj.mp h)
    omega

/-- A reading that takes no time. -/
def instant (ticks : ℕ) : Reading where
  high := ticks
  low := ticks
  high2 := ticks
  low2 := ticks
  ordered := ⟨Nat.le_refl _,Nat.le_refl _,Nat.le_refl _⟩
  brief := Nat.lt_add_of_pos_right (Nat.two_pow_pos 16)

/-- A wait of five ticks goes on for four over the turn of the clock. -/
theorem turn_is_waited :
    waitDone 5 (clGbaTimeTicks (instant (2^32-2)))
      [(false,instant (2^32+2)),(false,instant (2^32+3))]=some false := by
  refine (waits_are_exact 5 _ _ ?_).trans rfl
  exact ⟨by decide,by decide,by decide,by decide,trivial⟩

end ChisLink.TickClock
