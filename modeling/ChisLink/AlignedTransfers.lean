import Mathlib.Data.Int.Notation
import Mathlib.Data.List.GetD
import ChisLink.DriverPrograms

/-!
# Transfers in aligned pieces

A transfer to a memory of units goes on in pieces, none of which crosses the end of a
unit. Each piece is handed to a body, and a negative result ends the transfer. A rule for
writing and one for reading reduce a transfer to what its body does with one piece.
-/

namespace ChisLink.AlignedTransfers

open DriverPrograms

variable {σ α : Type}

/-- How much of a transfer fits from an address up to the end of its unit. -/
def pieceLength (unit address length : ℕ) : ℕ := min length (unit-address%unit)

/-- Hand over what is written piece by piece. -/
def writePieces (unit : ℕ) (body : ℕ → List α → Prog σ ℤ) : ℕ → ℕ → List α → Prog σ ℤ
  | 0,_,_ => pure 0
  | fuel+1,address,src =>
    if src.isEmpty then pure 0
    else do
      let n := pieceLength unit address src.length
      let ret ← body address (src.take n)
      if ret<0 then pure ret else writePieces unit body fuel (address+n) (src.drop n)

/-- Collect what is read piece by piece. -/
def readPieces (unit : ℕ) (body : ℕ → ℕ → Prog σ (Except ℤ (List α))) :
    ℕ → ℕ → ℕ → Prog σ (Except ℤ (List α))
  | 0,_,_ => pure (.ok [])
  | fuel+1,address,length =>
    if length=0 then pure (.ok [])
    else do
      let n := pieceLength unit address length
      match ← body address n with
      | .error ret => pure (.error ret)
      | .ok piece =>
        match ← readPieces unit body fuel (address+n) (length-n) with
        | .error ret => pure (.error ret)
        | .ok rest => pure (.ok (piece++rest))

section Cells

/-- The cells from an address on. -/
def cellsAt (cells : ℕ → α) (address length : ℕ) : List α :=
  (List.range' address length).map cells

/-- Put some values over the cells from an address on. -/
def splice (cells : ℕ → α) (address : ℕ) (src : List α) (i : ℕ) : α :=
  if address≤ i then src.getD (i-address) (cells i) else cells i

variable {cells : ℕ → α} {address length i : ℕ} {src : List α}

@[simp] theorem length_cellsAt : (cellsAt cells address length).length=length := by
  unfold cellsAt
  rw [List.length_map,List.length_range']

/-- Cells that have the values of a list. -/
theorem cellsAt_eq (h : ∀ (k : ℕ) (hk : k<src.length),cells (address+k)=src.get ⟨k,hk⟩) :
    cellsAt cells address src.length=src := by
  refine List.ext_get length_cellsAt fun k hk hk' => ?_
  rw [← h k hk']
  unfold cellsAt
  simp

theorem cellsAt_add (cells : ℕ → α) (address m n : ℕ) :
    cellsAt cells address (m+n)=cellsAt cells address m++cellsAt cells (address+m) n := by
  unfold cellsAt
  rw [← List.range'_append_1,List.map_append]

theorem cellsAt_congr {cells' : ℕ → α}
    (h : ∀ i,address≤ i → i<address+length → cells i=cells' i) :
    cellsAt cells address length=cellsAt cells' address length := by
  unfold cellsAt
  refine List.map_congr_left fun i hi => ?_
  have hrange := List.mem_range'_1.mp hi
  exact h i hrange.1 hrange.2

@[simp] theorem splice_nil : splice cells address []=cells := by
  funext i
  unfold splice
  split <;> simp

/-- Outside of the values nothing changes. -/
theorem splice_outside (h : i<address ∨ address+src.length≤ i) :
    splice cells address src i=cells i := by
  unfold splice
  split
  next hle =>
    rw [List.getD_eq_default _ _ (by omega)]
  · rfl

theorem splice_head (cells : ℕ → α) (address : ℕ) (x : α) (src : List α) :
    splice cells address (x::src) address=x := by
  unfold splice
  rw [if_pos (Nat.le_refl address),Nat.sub_self]
  rfl

/-- The values one by one. -/
theorem splice_cons (cells : ℕ → α) (address : ℕ) (x : α) (src : List α) :
    splice cells address (x::src)=splice (splice cells address [x]) (address+1) src := by
  funext i
  unfold splice
  rcases Nat.lt_trichotomy i address with hlt | rfl | hgt
  · rw [if_neg (by omega),if_neg (by omega),if_neg (by omega)]
  · rw [if_pos (Nat.le_refl i),if_neg (by omega),if_pos (Nat.le_refl i),Nat.sub_self]
    rfl
  · obtain ⟨k,hk⟩ : ∃ k,i-address=k+1 := ⟨i-address-1,by omega⟩
    have hk' : i-(address+1)=k := by omega
    rw [if_pos (by omega),if_pos (by omega),if_pos (by omega),hk,hk']
    rfl

/-- Values behind one another. -/
theorem splice_append (cells : ℕ → α) (address : ℕ) (first second : List α) :
    splice cells address (first++second)=
      splice (splice cells address first) (address+first.length) second := by
  induction first generalizing cells address with
  | nil => rw [List.nil_append,splice_nil,List.length_nil,Nat.add_zero]
  | cons x first ih =>
    have hlength : address+(x::first).length=address+1+first.length := by
      rw [List.length_cons]
      omega
    rw [List.cons_append,splice_cons,ih,hlength,splice_cons cells address x first]

/-- A part of the cells from an address on. -/
theorem cellsAt_part (cells : ℕ → α) (address : ℕ) {i n m : ℕ} (h : i+n≤ m) :
    ((cellsAt cells address m).drop i).take n=cellsAt cells (address+i) n := by
  obtain ⟨rest,rfl⟩ : ∃ rest,m=i+(n+rest) := ⟨m-i-n,by omega⟩
  rw [cellsAt_add,cellsAt_add,List.drop_left' length_cellsAt,List.take_left' length_cellsAt]

/-- Writing back what was read changes nothing. -/
theorem splice_cellsAt (cells : ℕ → α) (address n : ℕ) :
    splice cells address (cellsAt cells address n)=cells := by
  induction n generalizing address with
  | zero => exact splice_nil
  | succ n ih =>
    have hcells : cellsAt cells address (n+1)=cells address::cellsAt cells (address+1) n := by
      rw [Nat.add_comm n 1,cellsAt_add]
      rfl
    have hself : splice cells address [cells address]=cells := by
      funext i
      rcases Nat.lt_trichotomy i address with hlt | rfl | hgt
      · exact splice_outside (Or.inl hlt)
      · exact splice_head cells i (cells i) []
      · exact splice_outside (Or.inr hgt)
    rw [hcells,splice_cons,hself,ih]

/-- Some values put into a part of the cells that is written back as a whole. -/
theorem splice_patch (cells : ℕ → α) (address : ℕ) {i m : ℕ} (src : List α)
    (h : i+src.length≤ m) :
    splice cells address ((cellsAt cells address m).take i++src++
      (cellsAt cells address m).drop (i+src.length))=splice cells (address+i) src := by
  obtain ⟨rest,rfl⟩ : ∃ rest,m=i+(src.length+rest) := ⟨m-i-src.length,by omega⟩
  have hfirst : (cellsAt cells address (i+(src.length+rest))).take i=cellsAt cells address i := by
    rw [cellsAt_add,List.take_left' length_cellsAt]
  have hlast : (cellsAt cells address (i+(src.length+rest))).drop (i+src.length)=
      cellsAt (splice cells (address+i) src) (address+i+src.length) rest := by
    have hsame : ∀ j,address+i+src.length≤j → j<address+i+src.length+rest →
        cells j=splice cells (address+i) src j :=
      fun j hj _ => (splice_outside (Or.inr hj)).symm
    rw [← Nat.add_assoc,cellsAt_add,List.drop_left' length_cellsAt,← Nat.add_assoc]
    exact cellsAt_congr hsame
  have hlength : (cellsAt cells address i++src).length=i+src.length := by
    rw [List.length_append,length_cellsAt]
  rw [hfirst,hlast,splice_append,splice_append,splice_cellsAt,hlength,length_cellsAt,
    ← Nat.add_assoc,splice_cellsAt]

end Cells

section Rules

variable {unit : ℕ} {Q : ℤ → σ → Prop} {D : σ → Prop}

theorem pieceLength_pos {address length : ℕ} (hunit : 0<unit) (hlength : 0<length) :
    0<pieceLength unit address length := by
  have hmod := Nat.mod_lt address hunit
  unfold pieceLength
  omega

theorem pieceLength_le (unit address length : ℕ) : pieceLength unit address length≤length :=
  Nat.min_le_left _ _

/-- A piece does not cross the end of its unit. -/
theorem pieceLength_fits {address length : ℕ} (hunit : 0<unit) :
    address%unit+pieceLength unit address length≤unit := by
  have hmod := Nat.mod_lt address hunit
  unfold pieceLength
  omega

/-- The rule for writing: an invariant of what was handed over, kept by every piece. -/
theorem wp_writePieces {body : ℕ → List α → Prog σ ℤ} {I : List α → σ → Prop}
    {offset : ℕ} {src : List α} {s : σ} (hunit : 0<unit)
    (hbody : ∀ done piece rest t,src=done++piece++rest → piece≠[] →
      (offset+done.length)%unit+piece.length≤unit → I done t →
      wp (body (offset+done.length) piece)
        (fun ret u => (ret<0 ∧ Q ret u) ∨ (0≤ ret ∧ I (done++piece) u)) D t)
    (hs : I [] s) :
    wp (writePieces unit body src.length offset src)
      (fun ret t => (ret<0 ∧ Q ret t) ∨ (ret=0 ∧ I src t)) D s := by
  have hgeneral : ∀ (fuel : ℕ) (done rest : List α) (s : σ),rest.length≤fuel →
      src=done++rest → I done s →
      wp (writePieces unit body fuel (offset+done.length) rest)
        (fun ret t => (ret<0 ∧ Q ret t) ∨ (ret=0 ∧ I src t)) D s := by
    intro fuel
    induction fuel with
    | zero =>
      intro done rest s hfuel hsrc hs
      have hrest : rest=[] := List.length_eq_zero_iff.mp (Nat.le_zero.mp hfuel)
      rw [hrest,List.append_nil] at hsrc
      exact Or.inr ⟨rfl,hsrc ▸ hs⟩
    | succ fuel ih =>
      intro done rest s hfuel hsrc hs
      unfold writePieces
      by_cases hempty : rest.isEmpty=true
      · rw [if_pos hempty]
        rw [List.isEmpty_iff.mp hempty,List.append_nil] at hsrc
        exact Or.inr ⟨rfl,hsrc ▸ hs⟩
      · rw [if_neg hempty]
        have hpos : 0< rest.length :=
          List.length_pos_iff.mpr fun h => hempty (List.isEmpty_iff.mpr h)
        obtain ⟨n,hn⟩ : ∃ n,n=pieceLength unit (offset+done.length) rest.length := ⟨_,rfl⟩
        have hnpos := @pieceLength_pos unit (offset+done.length) rest.length hunit hpos
        have hnle := pieceLength_le unit (offset+done.length) rest.length
        have hfits := @pieceLength_fits unit (offset+done.length) rest.length hunit
        rw [← hn] at hnpos hnle hfits
        have htake : (rest.take n).length=n := List.length_take_of_le hnle
        have hsplit : src=done++rest.take n++rest.drop n := by
          rw [List.append_assoc,List.take_append_drop]
          exact hsrc
        have hpiece := hbody done (rest.take n) (rest.drop n) s hsplit
          (fun h => by rw [h,List.length_nil] at htake; omega) (by rw [htake]; exact hfits) hs
        dsimp only
        rw [← hn]
        refine wp_seq hpiece ?_
        rintro ret t (⟨hneg,hq⟩ | ⟨hnonneg,hI⟩)
        · rw [if_pos hneg]
          exact Or.inl ⟨hneg,hq⟩
        · rw [if_neg (by omega)]
          have haddress : offset+done.length+n=offset+(done++rest.take n).length := by
            rw [List.length_append,htake]
            omega
          rw [haddress]
          refine ih (done++rest.take n) (rest.drop n) t ?_ hsplit hI
          rw [List.length_drop]
          omega
  exact hgeneral src.length [] src s (Nat.le_refl _) rfl hs

/-- The rule for reading: an invariant, and a property of the pieces that their sequence
has too. -/
theorem wp_readPieces {body : ℕ → ℕ → Prog σ (Except ℤ (List α))} {I : ℕ → σ → Prop}
    {V : ℕ → ℕ → List α → Prop} {offset length : ℕ} {s : σ} (hunit : 0<unit)
    (hnil : ∀ k,V k 0 [])
    (happend : ∀ k m n first second,V k m first → V (k+m) n second →
      V k (m+n) (first++second))
    (hbody : ∀ k n t,k+n≤length → 0<n → (offset+k)%unit+n≤unit → I k t →
      wp (body (offset+k) n) (fun reply u => match reply with
        | .error ret => Q ret u
        | .ok piece => V k n piece ∧ I (k+n) u) D t)
    (hs : I 0 s) :
    wp (readPieces unit body length offset length) (fun reply t => match reply with
      | .error ret => Q ret t
      | .ok data => V 0 length data ∧ I length t) D s := by
  have hgeneral : ∀ (fuel k : ℕ) (s : σ),k≤length → length-k≤fuel → I k s →
      wp (readPieces unit body fuel (offset+k) (length-k)) (fun reply t => match reply with
        | .error ret => Q ret t
        | .ok data => V k (length-k) data ∧ I length t) D s := by
    intro fuel
    induction fuel with
    | zero =>
      intro k s hk hfuel hs
      have hend : length-k=0 := Nat.le_zero.mp hfuel
      have hsame : k=length := by omega
      rw [hend]
      exact ⟨hnil k,hsame ▸ hs⟩
    | succ fuel ih =>
      intro k s hk hfuel hs
      unfold readPieces
      by_cases hend : length-k=0
      · have hsame : k=length := by omega
        rw [if_pos hend,hend]
        exact ⟨hnil k,hsame ▸ hs⟩
      · rw [if_neg hend]
        obtain ⟨n,hn⟩ : ∃ n,n=pieceLength unit (offset+k) (length-k) := ⟨_,rfl⟩
        have hnpos := @pieceLength_pos unit (offset+k) (length-k) hunit (by omega)
        have hnle := pieceLength_le unit (offset+k) (length-k)
        have hfits := @pieceLength_fits unit (offset+k) (length-k) hunit
        rw [← hn] at hnpos hnle hfits
        dsimp only
        rw [← hn]
        refine wp_seq (hbody k n s (by omega) hnpos hfits hs) ?_
        intro reply t hreply
        cases reply with
        | error ret => exact hreply
        | ok piece =>
          obtain ⟨hpiece,hI⟩ := hreply
          have hrest := ih (k+n) t (by omega) (by omega) hI
          have haddress : offset+k+n=offset+(k+n) := Nat.add_assoc _ _ _
          have hlength : length-k-n=length-(k+n) := Nat.sub_sub _ _ _
          dsimp only
          rw [haddress,hlength]
          refine wp_seq hrest ?_
          intro reply u hreply
          cases reply with
          | error ret => exact hreply
          | ok rest =>
            obtain ⟨hdata,hlast⟩ := hreply
            have htotal : length-k=n+(length-(k+n)) := by omega
            rw [htotal]
            exact ⟨happend k n _ piece rest hpiece hdata,hlast⟩
  exact hgeneral length 0 s (Nat.zero_le _) (Nat.le_refl _) hs

/-- The rule for reading cells. -/
theorem wp_readPieces_cells (cells : ℕ → α) {body : ℕ → ℕ → Prog σ (Except ℤ (List α))}
    {I : ℕ → σ → Prop} {offset length : ℕ} {s : σ} (hunit : 0<unit)
    (hbody : ∀ k n t,k+n≤length → 0<n → (offset+k)%unit+n≤unit → I k t →
      wp (body (offset+k) n) (fun reply u => match reply with
        | .error ret => Q ret u
        | .ok piece => piece=cellsAt cells (offset+k) n ∧ I (k+n) u) D t)
    (hs : I 0 s) :
    wp (readPieces unit body length offset length) (fun reply t => match reply with
      | .error ret => Q ret t
      | .ok data => data=cellsAt cells offset length ∧ I length t) D s := by
  refine wp_readPieces (V := fun k n data => data=cellsAt cells (offset+k) n) hunit
    (fun _ => rfl) ?_ hbody hs
  rintro k m n first second rfl rfl
  rw [cellsAt_add,Nat.add_assoc]

end Rules

section Keeping

variable {β : Type} {P : σ → Prop}

/-- A program that always ends and keeps a property of the states. -/
def Keeps (P : σ → Prop) (p : Prog σ α) : Prop :=
  ∀ s,P s → wp p (fun _ t => P t) (fun _ => False) s

theorem keeps_pure (a : α) : Keeps P (pure a) := fun _ hs => hs

theorem keeps_inspect (f : σ → α) : Keeps P (inspect f) := fun _ hs => hs

theorem keeps_update {f : σ → σ} (h : ∀ s,P s → P (f s)) : Keeps P (update f) := h

theorem keeps_access {f : σ → α×σ} (h : ∀ s,P s → P (f s).2) : Keeps P (access f) := h

theorem Keeps.bind {p : Prog σ β} {f : β → Prog σ α} (hp : Keeps P p) (hf : ∀ b,Keeps P (f b)) :
    Keeps P (p >>= f) := by
  intro s hs
  exact wp_seq (hp s hs) (fun b t ht => hf b t ht)

theorem keeps_ite {c : Prop} [Decidable c] {p q : Prog σ α} (hp : Keeps P p) (hq : Keeps P q) :
    Keeps P (if c then p else q) := by
  split
  · exact hp
  · exact hq

theorem keeps_writePieces {unit : ℕ} {body : ℕ → List α → Prog σ ℤ}
    (hbody : ∀ address piece,Keeps P (body address piece)) (fuel address : ℕ) (src : List α) :
    Keeps P (writePieces unit body fuel address src) := by
  induction fuel generalizing address src with
  | zero => exact keeps_pure 0
  | succ fuel ih =>
    unfold writePieces
    refine keeps_ite (keeps_pure 0) ((hbody _ _).bind fun ret => ?_)
    exact keeps_ite (keeps_pure ret) (ih _ _)

theorem keeps_readPieces {unit : ℕ} {body : ℕ → ℕ → Prog σ (Except ℤ (List α))}
    (hbody : ∀ address n,Keeps P (body address n)) (fuel address length : ℕ) :
    Keeps P (readPieces unit body fuel address length) := by
  induction fuel generalizing address length with
  | zero => exact keeps_pure _
  | succ fuel ih =>
    unfold readPieces
    refine keeps_ite (keeps_pure _) ((hbody _ _).bind fun reply => ?_)
    cases reply with
    | error ret => exact keeps_pure _
    | ok piece =>
      refine (ih _ _).bind fun reply => ?_
      cases reply with
      | error ret => exact keeps_pure _
      | ok rest => exact keeps_pure _

end Keeping

end ChisLink.AlignedTransfers
