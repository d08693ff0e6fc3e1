import Mathlib.Data.List.DropRight

/-!
# Units of a byte string

A byte string is cut from its beginning into units. Where the encoding of a character in
several bytes stands it is one unit, and any other byte is one of its own. Because no byte
that begins an encoding continues another one, a unit is found wherever an encoding stands.
-/

namespace ChisLink.Utf8Units

/-- A byte that continues an encoding. -/
def IsContinuation (b : UInt8) : Prop := b.toNat/64=2

instance : DecidablePred IsContinuation := fun b => inferInstanceAs (Decidable (b.toNat/64=2))

/-- Bytes of the encodings that a byte begins, or zero. -/
def leadWidth (lead : UInt8) : ℕ :=
  if lead.toNat<128 then 1
  else if lead.toNat/32=6 then 2
  else if lead.toNat/16=14 then 3
  else if lead.toNat/8=30 then 4
  else 0

/-- The shape of an encoding in several bytes. -/
def IsMultibyte : List UInt8 → Prop
  | [] => False
  | lead::rest => rest≠[] ∧ leadWidth lead=rest.length+1 ∧ ∀ b∈rest,IsContinuation b

/-- A byte begins the encoding of a character in several bytes, and the rest of it follows. -/
def Begins (lead : UInt8) (rest : List UInt8) : Prop :=
  1< leadWidth lead ∧ leadWidth lead≤ rest.length+1 ∧
    ∀ b∈ rest.take (leadWidth lead-1),IsContinuation b

instance (lead : UInt8) (rest : List UInt8) : Decidable (Begins lead rest) :=
  haveI : Decidable (∀ b∈ rest.take (leadWidth lead-1),IsContinuation b) :=
    List.decidableBAll _ _
  inferInstanceAs (Decidable (_ ∧ _ ∧ _))

/-- Bytes of the first unit of a byte string. -/
def unitLength : List UInt8 → ℕ
  | [] => 0
  | lead::rest => if Begins lead rest then leadWidth lead else 1

theorem unitLength_cons (lead : UInt8) (rest : List UInt8) :
    unitLength (lead::rest)=if Begins lead rest then leadWidth lead else 1 := rfl

theorem unitLength_pos {text : List UInt8} (h : text≠[]) : 0< unitLength text := by
  cases text with
  | nil => exact absurd rfl h
  | cons lead rest =>
    rw [unitLength_cons]
    split
    next h => exact Nat.zero_lt_of_lt h.1
    next => exact Nat.one_pos

theorem unitLength_le (text : List UInt8) : unitLength text≤ text.length := by
  cases text with
  | nil => exact Nat.zero_le _
  | cons lead rest =>
    rw [unitLength_cons,List.length_cons]
    split
    next h => exact h.2.1
    next => exact Nat.le_add_left 1 rest.length

/-- The units of a byte string. -/
def units (text : List UInt8) : List (List UInt8) :=
  if h : text=[] then []
  else text.take (unitLength text)::units (text.drop (unitLength text))
termination_by text.length
decreasing_by
  have hpos := unitLength_pos h
  have hlength := List.length_pos_iff.mpr h
  rw [List.length_drop]
  omega

section Encodings

/-- The encoding of every character that takes several bytes has the shape. -/
theorem isMultibyte_utf8EncodeChar {c : Char} (h : 1<(String.utf8EncodeChar c).length) :
    IsMultibyte (String.utf8EncodeChar c) := by
  have hbyte : ∀ n<256,(UInt8.ofNat n).toNat=n := fun n hn => Nat.mod_eq_of_lt hn
  have hcontinuation : ∀ n,IsContinuation (UInt8.ofNat (n%64+128)) := by
    intro n
    unfold IsContinuation
    rw [hbyte _ (by omega)]
    omega
  unfold String.utf8EncodeChar at h ⊢
  dsimp only at h ⊢
  generalize c.val.toNat=v at h ⊢
  split at h
  · exact absurd h (Nat.lt_irrefl 1)
  next hfirst =>
    rw [if_neg hfirst]
    split
    · refine ⟨List.cons_ne_nil _ _,?_,?_⟩
      · unfold leadWidth
        rw [hbyte _ (by omega),if_neg (by omega),if_pos (by omega)]
        rfl
      · simp only [List.mem_cons,List.not_mem_nil,or_false,forall_eq]
        exact hcontinuation v
    next hsecond =>
      split
      · refine ⟨List.cons_ne_nil _ _,?_,?_⟩
        · unfold leadWidth
          rw [hbyte _ (by omega),if_neg (by omega),if_neg (by omega),if_pos (by omega)]
          rfl
        · simp only [List.mem_cons,List.not_mem_nil,or_false,forall_eq_or_imp,forall_eq]
          exact ⟨hcontinuation _,hcontinuation v⟩
      next hthird =>
        refine ⟨List.cons_ne_nil _ _,?_,?_⟩
        · unfold leadWidth
          rw [hbyte _ (by omega),if_neg (by omega),if_neg (by omega),if_neg (by omega),
            if_pos (by omega)]
          rfl
        · simp only [List.mem_cons,List.not_mem_nil,or_false,forall_eq_or_imp,forall_eq]
          exact ⟨hcontinuation _,hcontinuation _,hcontinuation v⟩

end Encodings

section Units

variable {text seq a b u : List UInt8}

theorem units_of_ne_nil (h : text≠[]) :
    units text=text.take (unitLength text)::units (text.drop (unitLength text)) := by
  rw [units,dif_neg h]

/-- The first unit is a byte or has the shape of an encoding. -/
theorem take_unitLength (h : text≠[]) :
    (∃ lead,text.take (unitLength text)=[lead]) ∨
      IsMultibyte (text.take (unitLength text)) := by
  cases text with
  | nil => exact absurd rfl h
  | cons lead rest =>
    by_cases hmulti : Begins lead rest
    · have hmany := hmulti.1
      have hroom := hmulti.2.1
      have hlength : unitLength (lead::rest)=leadWidth lead-1+1 := by
        rw [unitLength_cons,if_pos hmulti]
        omega
      rw [hlength,List.take_succ_cons]
      have htake : (rest.take (leadWidth lead-1)).length=leadWidth lead-1 := by
        rw [List.length_take]
        omega
      refine Or.inr ⟨fun hnil => ?_,by omega,hmulti.2.2⟩
      rw [hnil,List.length_nil] at htake
      omega
    · have hlength : unitLength (lead::rest)=1 := by
        rw [unitLength_cons,if_neg hmulti]
      rw [hlength]
      exact Or.inl ⟨lead,rfl⟩

/-- Every unit is a byte or has the shape of an encoding. -/
theorem unit_cases (h : u∈ units text) : (∃ lead,u=[lead]) ∨ IsMultibyte u := by
  fun_induction units text with
  | case1 => exact absurd h List.not_mem_nil
  | case2 text hne ih =>
    rcases List.mem_cons.mp h with rfl | hrest
    · exact take_unitLength hne
    · exact ih hrest

/-- Where an encoding stands the first unit is the encoding. -/
theorem unitLength_of_multibyte (h : IsMultibyte seq) (b : List UInt8) :
    unitLength (seq++b)=seq.length := by
  cases seq with
  | nil => exact h.elim
  | cons lead rest =>
    obtain ⟨hne,hwidth,hrest⟩ := h
    have hpos := List.length_pos_iff.mpr hne
    have htake : (rest++b).take (leadWidth lead-1)=rest := by
      rw [hwidth,Nat.add_sub_cancel,List.take_left]
    rw [List.cons_append]
    have hbegins : Begins lead (rest++b) := by
      refine ⟨by omega,?_,?_⟩
      · rw [List.length_append]
        omega
      · rw [htake]
        exact hrest
    rw [unitLength_cons,if_pos hbegins,hwidth,List.length_cons]

/-- A unit does not reach over the beginning of an encoding. -/
theorem unitLength_le_of_append (hne : a≠[]) (h : IsMultibyte seq) :
    unitLength (a++seq++b)≤ a.length := by
  by_contra hover
  cases a with
  | nil => exact hne rfl
  | cons lead rest =>
    cases seq with
    | nil => exact h
    | cons first others =>
      rw [List.append_assoc,List.cons_append,List.cons_append] at hover
      rw [unitLength_cons] at hover
      by_cases hmulti : Begins lead (rest++first::(others++b))
      · rw [if_pos hmulti] at hover
        rw [List.length_cons] at hover
        -- the byte that begins the encoding would continue the unit
        have hmem : first∈(rest++first::(others++b)).take (leadWidth lead-1) := by
          rw [List.mem_take_iff_getElem]
          refine ⟨rest.length,?_,?_⟩
          · rw [List.length_append,List.length_cons]
            omega
          · rw [List.getElem_append_right (le_refl _)]
            simp only [Nat.sub_self,List.getElem_cons_zero]
        have hcontinuation := hmulti.2.2 first hmem
        have hwidth := h.2.1
        have hpos := List.length_pos_iff.mpr h.1
        unfold IsContinuation at hcontinuation
        unfold leadWidth at hwidth
        rw [if_neg (by omega),if_neg (by omega),if_neg (by omega),if_neg (by omega)] at hwidth
        omega
      · rw [if_neg hmulti,List.length_cons] at hover
        omega

/-- Wherever an encoding stands it is a unit. -/
theorem units_split (h : IsMultibyte seq) (htext : text=a++seq++b) :
    ∃ before after,units text=before++seq::after ∧ before.flatten=a := by
  have hseq : seq≠[] := by
    rintro rfl
    exact h
  fun_induction units text generalizing a with
  | case1 =>
    have hnil := htext.symm
    rw [List.append_assoc,List.append_eq_nil_iff,List.append_eq_nil_iff] at hnil
    exact absurd hnil.2.1 hseq
  | case2 text hne ih =>
    by_cases ha : a=[]
    · rw [ha,List.nil_append] at htext
      have hlength := unitLength_of_multibyte h b
      rw [← htext] at hlength
      refine ⟨[],units (text.drop (unitLength text)),?_,ha.symm⟩
      rw [hlength,htext,List.take_left,List.nil_append]
    · have hle : unitLength text≤ a.length := by
        rw [htext]
        exact unitLength_le_of_append ha h
      have hdrop : text.drop (unitLength text)=a.drop (unitLength text)++seq++b := by
        have hparts : text=a++(seq++b) := by
          rw [htext,List.append_assoc]
        have hsame := congrArg (List.drop (unitLength text)) hparts
        rw [List.drop_append_of_le_length hle,← List.append_assoc] at hsame
        exact hsame
      obtain ⟨before,after,hunits,hflatten⟩ := ih hdrop
      refine ⟨text.take (unitLength text)::before,after,?_,?_⟩
      · rw [hunits,List.cons_append]
      · have hparts : text=a++(seq++b) := by
          rw [htext,List.append_assoc]
        have hsame := congrArg (List.take (unitLength text)) hparts
        rw [List.take_append_of_le_length hle] at hsame
        rw [List.flatten_cons,hflatten,hsame,List.take_append_drop]

/-- A suffix of the bytes of the last units is dropped with all of a unit, where the bytes
that are dropped are units of their own. -/
theorem rdropWhile_flatten {p : UInt8 → Bool} {pieces : List (List UInt8)}
    (hpieces : ∀ u∈pieces,(∃ c,u=[c]) ∨ ∃ init last,u=init++[last] ∧ p last=false) :
    ∃ m≤ pieces.length,pieces.flatten.rdropWhile p=(pieces.take m).flatten := by
  induction pieces using List.reverseRecOn with
  | nil => exact ⟨0,le_rfl,List.rdropWhile_nil p⟩
  | append_singleton pieces u ih =>
    obtain ⟨m,hm,hdrop⟩ := ih fun v hv => hpieces v (List.mem_append_left _ hv)
    have hflatten : (pieces++[u]).flatten=pieces.flatten++u := by
      rw [List.flatten_append,List.flatten_singleton]
    have hkeep : ∀ init last,u=init++[last] → p last=false →
        ∃ m≤(pieces++[u]).length,(pieces++[u]).flatten.rdropWhile p=
          ((pieces++[u]).take m).flatten := by
      intro init last hu hlast
      refine ⟨(pieces++[u]).length,le_rfl,?_⟩
      rw [List.take_length,hflatten,hu,← List.append_assoc]
      exact List.rdropWhile_concat_neg p _ _ (by rw [hlast]; exact Bool.false_ne_true)
    rcases hpieces u (List.mem_append_right _ (List.mem_singleton.mpr rfl)) with
      ⟨c,rfl⟩ | ⟨init,last,hu,hlast⟩
    · by_cases hc : p c=true
      · refine ⟨m,by rw [List.length_append]; omega,?_⟩
        rw [hflatten,List.rdropWhile_concat_pos p _ _ hc,hdrop,
          List.take_append_of_le_length hm]
      · exact hkeep [] c rfl (Bool.not_eq_true _ ▸ hc)
    · exact hkeep init last hu hlast

end Units

end ChisLink.Utf8Units
