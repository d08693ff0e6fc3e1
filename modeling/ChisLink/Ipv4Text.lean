import ChisLink.SocketLayer
import ChisLink.StorageBoundary
import Mathlib.Logic.Function.Basic

/-!
# Addresses as text

An IPv4 address is written as four decimal numbers with dots between them. The parser goes
through a string character by character and accepts what the grammar of these strings
allows. It takes back every address that was written.
-/

namespace ChisLink.Ipv4Text

open SocketLayer StorageBoundary WireProtocol

section Program

/-- The variables of the loop of `cl_net_parse_ipv4`. -/
structure Ipv4Parse where
  /-- The numbers. -/
  parts : ℕ → ℕ
  /-- Which number is read. -/
  part : ℕ
  /-- Digits of it so far. -/
  digitCount : ℕ

/-- The character of a dot. -/
def dot : UInt8 := 0x2e

/-- The digits. -/
def IsDigit (ch : UInt8) : Prop := 0x30≤ ch ∧ ch≤0x39

instance (ch : UInt8) : Decidable (IsDigit ch) := inferInstanceAs (Decidable (_ ∧ _))

/-- One round of the loop. -/
def ipv4Step (s : Ipv4Parse) (ch : UInt8) : Option Ipv4Parse :=
  if IsDigit ch then
    if 3≤ s.digitCount then none
    else
      let value := s.parts s.part*10+(ch.toNat-0x30)
      if 255<value then none
      else some { s with
        parts := Function.update s.parts s.part value
        digitCount := s.digitCount+1 }
  else if ch=dot then
    if s.digitCount=0 ∨ 3≤ s.part then none
    else some {s with part := s.part+1,digitCount := 0}
  else none

/-- The loop, which ends at the end of the string. -/
def ipv4Scan (s : Ipv4Parse) : List UInt8 → Option Ipv4Parse
  | [] => some s
  | ch::text =>
    if ch=0 then some s
    else
      match ipv4Step s ch with
      | none => none
      | some t => ipv4Scan t text

/-- The macro `CL_NET_IPV4`. -/
def clNetIpv4 (a b c d : ℕ) : UInt32 :=
  ((UInt32.ofNat a &&& 0xff) <<< 24) ||| ((UInt32.ofNat b &&& 0xff) <<< 16) |||
    ((UInt32.ofNat c &&& 0xff) <<< 8) ||| (UInt32.ofNat d &&& 0xff)

/-- The function `cl_net_parse_ipv4`: the address, if it succeeds. -/
def clNetParseIpv4 (text : List UInt8) : Option UInt32 :=
  match ipv4Scan ⟨fun _ => 0,0,0⟩ text with
  | none => none
  | some s =>
    if s.part≠3 ∨ s.digitCount=0 then none
    else some (clNetIpv4 (s.parts 0) (s.parts 1) (s.parts 2) (s.parts 3))

/-- The function `cl_inet_aton`: the result and what is stored. -/
def clInetAton (text : List UInt8) : ℤ×Option UInt32 :=
  match clNetParseIpv4 text with
  | none => (0,none)
  | some ipv4 => (1,some (swap32 ipv4))

/-- The function `cl_inet_pton`. -/
def clInetPton (af : ℤ) (src : List UInt8) : ℤ×Option UInt32 :=
  if af≠clAfInet.toNat then (-1,none) else clInetAton src

/-- The function `append_u8_decimal`. -/
def appendU8Decimal (dst : List UInt8) (value : UInt8) : List UInt8 :=
  if 100≤value then
    dst++[0x30+value/100,0x30+value%100/10,0x30+value%100%10]
  else if 10≤value then dst++[0x30+value/10,0x30+value%10]
  else dst++[0x30+value]

/-- Longest text of an address with its end. -/
def clInetAddrstrlen : ℕ := 16

/-- The function `cl_inet_ntop`: what is stored, if it succeeds. -/
def clInetNtop (af : ℤ) (src : List UInt8) (size : ℕ) : Option (List UInt8) :=
  if af≠clAfInet.toNat ∨ size< clInetAddrstrlen then none
  else
    let out := (List.range 4).foldl
      (fun out i => appendU8Decimal (if i≠0 then out++[dot] else out) (src.getD i 0)) []
    some (out++[0])

end Program

section Grammar

/-- The string in a memory: what is before the first zero. -/
def cString (text : List UInt8) : List UInt8 := text.takeWhile fun ch => ch≠0

/-- The number that digits denote. -/
def digitsValue (digits : List UInt8) : ℕ :=
  digits.foldl (fun value ch => value*10+(ch.toNat-0x30)) 0

/-- Digits that may be a number of an address. -/
structure IsGroup (digits : List UInt8) : Prop where
  /-- There is one. -/
  some_digit : digits≠[]
  /-- There are at most three. -/
  length_le : digits.length≤3
  /-- They are digits. -/
  isDigit : ∀ ch∈digits,IsDigit ch
  /-- The number fits a byte. -/
  value_le : digitsValue digits≤255

/-- Numbers with single dots between them, and what they are. -/
inductive Dotted : List UInt8 → List ℕ → Prop where
  /-- The last one. -/
  | last {digits : List UInt8} (h : IsGroup digits) : Dotted digits [digitsValue digits]
  /-- One before others. -/
  | more {digits text : List UInt8} {values : List ℕ} (h : IsGroup digits)
      (hrest : Dotted text values) : Dotted (digits++dot::text) (digitsValue digits::values)

theorem digitsValue_snoc (digits : List UInt8) (ch : UInt8) :
    digitsValue (digits++[ch])=digitsValue digits*10+(ch.toNat-0x30) := by
  unfold digitsValue
  rw [List.foldl_append]
  rfl

/-- More digits do not make the number smaller. -/
theorem digitsValue_le (digits more : List UInt8) :
    digitsValue digits≤digitsValue (digits++more) := by
  induction more using List.reverseRecOn with
  | nil => rw [List.append_nil]
  | append_singleton more ch ih =>
    rw [← List.append_assoc,digitsValue_snoc]
    omega

theorem not_isDigit_dot : ¬IsDigit dot := by decide

theorem not_isDigit_zero : ¬IsDigit 0 := by decide

/-- Texts of numbers are the same up to the first dot. -/
theorem split_dot {digits digits' text text' : List UInt8} (h : ∀ ch∈digits,IsDigit ch)
    (h' : ∀ ch∈digits',IsDigit ch) (heq : digits++dot::text=digits'++dot::text') :
    digits=digits' ∧ text=text' := by
  induction digits generalizing digits' with
  | nil =>
    cases digits' with
    | nil => exact ⟨rfl,(List.cons.inj heq).2⟩
    | cons ch digits' =>
      have hfirst := (List.cons.inj heq).1
      exact absurd (h' ch List.mem_cons_self) (hfirst ▸ not_isDigit_dot)
  | cons ch digits ih =>
    cases digits' with
    | nil =>
      have hfirst := (List.cons.inj heq).1
      exact absurd (h ch List.mem_cons_self) (hfirst ▸ not_isDigit_dot)
    | cons ch' digits' =>
      obtain ⟨rfl,hrest⟩ := List.cons.inj heq
      obtain ⟨rfl,rfl⟩ := ih (fun c hc => h c (List.mem_cons_of_mem _ hc))
        (fun c hc => h' c (List.mem_cons_of_mem _ hc)) hrest
      exact ⟨rfl,rfl⟩

/-- Digits alone are one number. -/
theorem dotted_digits {digits : List UInt8} {values : List ℕ} (h : ∀ ch∈digits,IsDigit ch) :
    Dotted digits values ↔ IsGroup digits ∧ values=[digitsValue digits] := by
  constructor
  · intro hdotted
    cases hdotted with
    | last hgroup => exact ⟨hgroup,rfl⟩
    | more hgroup hrest =>
      refine absurd (h dot ?_) not_isDigit_dot
      exact List.mem_append_right _ List.mem_cons_self
  · rintro ⟨hgroup,rfl⟩
    exact .last hgroup

/-- Digits before a dot are the first number. -/
theorem dotted_dot {digits text : List UInt8} {values : List ℕ} (h : ∀ ch∈digits,IsDigit ch) :
    Dotted (digits++dot::text) values ↔
      IsGroup digits ∧ ∃ rest,values=digitsValue digits::rest ∧ Dotted text rest := by
  constructor
  · intro hdotted
    generalize htext : digits++dot::text=whole at hdotted
    cases hdotted with
    | last hgroup =>
      refine absurd (hgroup.isDigit dot ?_) not_isDigit_dot
      rw [← htext]
      exact List.mem_append_right _ List.mem_cons_self
    | more hgroup hrest =>
      obtain ⟨rfl,rfl⟩ := split_dot h hgroup.isDigit htext
      exact ⟨hgroup,_,rfl,hrest⟩
  · rintro ⟨hgroup,rest,rfl,hrest⟩
    exact .more hgroup hrest

/-- The first number of a text is at least that of its first digits, and as long. -/
theorem dotted_prefix {digits text : List UInt8} {values : List ℕ}
    (hdotted : Dotted (digits++text) values) (h : ∀ ch∈digits,IsDigit ch) :
    digits.length≤3 ∧ digitsValue digits≤255 := by
  have hgroup : ∀ {group : List UInt8},IsGroup group → digits <+: group →
      digits.length≤3 ∧ digitsValue digits≤255 := by
    rintro group hgroup ⟨more,rfl⟩
    have hlength := hgroup.length_le
    rw [List.length_append] at hlength
    exact ⟨by omega,(digitsValue_le digits more).trans hgroup.value_le⟩
  generalize htext : digits++text=whole at hdotted
  cases hdotted with
  | last hlast => exact hgroup hlast ⟨text,htext⟩
  | more hfirst hrest =>
    refine hgroup hfirst ?_
    rcases List.append_eq_append_iff.mp htext with ⟨more,hmore,-⟩ | ⟨more,hmore,hdot⟩
    · exact ⟨more,hmore.symm⟩
    · cases more with
      | nil => exact ⟨[],by rw [hmore,List.append_nil,List.append_nil]⟩
      | cons ch more =>
        refine absurd (h dot ?_) not_isDigit_dot
        rw [hmore,(List.cons.inj hdot).1]
        exact List.mem_append_right _ List.mem_cons_self

/-- Every character is a digit or a dot. -/
theorem dotted_chars {text : List UInt8} {values : List ℕ} (h : Dotted text values) :
    ∀ ch∈text,IsDigit ch ∨ ch=dot := by
  induction h with
  | last hgroup => exact fun ch hch => Or.inl (hgroup.isDigit ch hch)
  | more hgroup hrest ih =>
    intro ch hch
    rcases List.mem_append.mp hch with hfirst | hlater
    · exact Or.inl (hgroup.isDigit ch hfirst)
    · rcases List.mem_cons.mp hlater with hdot | hrest
      · exact Or.inr hdot
      · exact ih ch hrest

/-- A text has no end inside it. -/
theorem dotted_ne_zero {text : List UInt8} {values : List ℕ} (h : Dotted text values) :
    ∀ ch∈text,ch≠0 := by
  rintro ch hch rfl
  rcases dotted_chars h 0 hch with hdigit | hdot
  · exact not_isDigit_zero hdigit
  · exact absurd hdot (by decide)

/-- A string that is stored with its end. -/
theorem cString_text {text rest : List UInt8} (h : ∀ ch∈text,ch≠0) :
    cString (text++[0]++rest)=text := by
  unfold cString
  rw [List.append_assoc,List.takeWhile_append_of_pos fun ch hch => decide_eq_true (h ch hch)]
  exact List.append_nil text

/-- A text has a number. -/
theorem dotted_ne_nil {text : List UInt8} {values : List ℕ} (h : Dotted text values) :
    values≠[] := by
  cases h <;> exact List.cons_ne_nil _ _

end Grammar

section Machine

theorem cString_zero (text : List UInt8) : cString (0::text)=[] := rfl

theorem cString_cons {ch : UInt8} {text : List UInt8} (h : ch≠0) :
    cString (ch::text)=ch::cString text :=
  List.takeWhile_cons_of_pos (decide_eq_true h)

/-- A state of the loop in which some digits of a number were read. -/
structure Reading (s : Ipv4Parse) (digits : List UInt8) : Prop where
  /-- There is room for the number. -/
  part_le : s.part≤3
  /-- The digits are counted. -/
  digitCount : s.digitCount=digits.length
  /-- There are at most three. -/
  length_le : digits.length≤3
  /-- They are digits. -/
  isDigit : ∀ ch∈digits,IsDigit ch
  /-- The number so far. -/
  value : s.parts s.part=digitsValue digits
  /-- It fits a byte. -/
  value_le : digitsValue digits≤255
  /-- The later numbers are not begun. -/
  later : ∀ i,s.part< i → s.parts i=0

variable {s : Ipv4Parse} {digits : List UInt8}

/-- The digits are a number if there are any. -/
theorem Reading.isGroup_iff (h : Reading s digits) : IsGroup digits ↔ s.digitCount≠0 := by
  have hcount := h.digitCount
  constructor
  · intro hgroup hzero
    refine hgroup.some_digit (List.eq_nil_of_length_eq_zero ?_)
    omega
  · intro hcount'
    refine ⟨?_,h.length_le,h.isDigit,h.value_le⟩
    rintro rfl
    exact hcount' hcount

/-- The loop ends with four numbers if the rest of the text has them. -/
def Ends (s : Ipv4Parse) (text : List UInt8) (numbers : List ℕ) : Prop :=
  ∃ t,ipv4Scan s text=some t ∧ t.part=3 ∧ t.digitCount≠0 ∧ numbers=(List.range 4).map t.parts

/-- The rest of the text completes the numbers. -/
def Completes (s : Ipv4Parse) (digits text : List UInt8) (numbers : List ℕ) : Prop :=
  ∃ values,Dotted (digits++text) values ∧
    numbers=(List.range s.part).map s.parts++values ∧ numbers.length=4

/-- A step that fails ends the loop. -/
theorem not_ends {ch : UInt8} (text : List UInt8) (numbers : List ℕ) (hzero : ch≠0)
    (hstep : ipv4Step s ch=none) : ¬Ends s (ch::text) numbers := by
  rintro ⟨t,hscan,-⟩
  rw [ipv4Scan,if_neg hzero,hstep] at hscan
  cases hscan

/-- After a step the loop goes on. -/
theorem ends_cons {ch : UInt8} {t : Ipv4Parse} (text : List UInt8) (numbers : List ℕ)
    (hzero : ch≠0) (hstep : ipv4Step s ch=some t) :
    Ends s (ch::text) numbers ↔ Ends t text numbers := by
  unfold Ends
  rw [ipv4Scan,if_neg hzero,hstep]

/-- At the end of the string the last number must have been read. -/
theorem ends_of_scan {text : List UInt8} (numbers : List ℕ) (h : Reading s digits)
    (hscan : ipv4Scan s text=some s) : Ends s text numbers ↔ Completes s digits [] numbers := by
  have hends : Ends s text numbers ↔
      s.part=3 ∧ s.digitCount≠0 ∧ numbers=(List.range 4).map s.parts := by
    unfold Ends
    rw [hscan]
    constructor
    · rintro ⟨t,ht,hrest⟩
      cases ht
      exact hrest
    · exact fun hrest => ⟨s,rfl,hrest⟩
  rw [hends]
  unfold Completes
  constructor
  · rintro ⟨hpart,hcount,rfl⟩
    have hvalue := h.value
    refine ⟨[digitsValue digits],?_,?_,by rw [List.length_map,List.length_range]⟩
    · rw [List.append_nil]
      exact .last (h.isGroup_iff.mpr hcount)
    · rw [hpart] at hvalue ⊢
      rw [← hvalue,List.range_succ,List.map_append,List.map_singleton]
  · rintro ⟨values,hdotted,hnumbers,hlength⟩
    rw [List.append_nil,dotted_digits h.isDigit] at hdotted
    obtain ⟨hgroup,rfl⟩ := hdotted
    have hpart : s.part=3 := by
      rw [hnumbers,List.length_append,List.length_map,List.length_range] at hlength
      simpa using hlength
    have hvalue := h.value
    refine ⟨hpart,h.isGroup_iff.mp hgroup,?_⟩
    rw [hpart] at hvalue hnumbers
    rw [hnumbers,← hvalue]
    rfl

/-- A digit is read if the number stays small. -/
theorem ends_digit {ch : UInt8} {text : List UInt8} (numbers : List ℕ) (h : Reading s digits)
    (hzero : ch≠0) (hdigit : IsDigit ch)
    (ih : ∀ t digits',Reading t digits' →
      (Ends t text numbers ↔ Completes t digits' (cString text) numbers)) :
    Ends s (ch::text) numbers ↔ Completes s digits (ch::cString text) numbers := by
  have hdigits : ∀ c∈digits++[ch],IsDigit c := by
    intro c hc
    rcases List.mem_append.mp hc with hold | hnew
    · exact h.isDigit c hold
    · rw [List.mem_singleton.mp hnew]
      exact hdigit
  have hsplit : digits++ch::cString text=digits++[ch]++cString text := by
    rw [List.append_assoc,List.singleton_append]
  have hlength : (digits++[ch]).length=s.digitCount+1 := by
    rw [List.length_append,h.digitCount,List.length_singleton]
  have hvalue : digitsValue (digits++[ch])=s.parts s.part*10+(ch.toNat-0x30) := by
    rw [digitsValue_snoc,h.value]
  have hbounds : Completes s digits (ch::cString text) numbers →
      (digits++[ch]).length≤3 ∧ digitsValue (digits++[ch])≤255 := by
    rintro ⟨values,hdotted,-⟩
    rw [hsplit] at hdotted
    exact dotted_prefix hdotted hdigits
  by_cases hmany : 3≤ s.digitCount
  · refine iff_of_false (not_ends text numbers hzero ?_) fun hcompletes => ?_
    · rw [ipv4Step,if_pos hdigit,if_pos hmany]
    · have hthree := (hbounds hcompletes).1
      omega
  by_cases hlarge : 255<s.parts s.part*10+(ch.toNat-0x30)
  · refine iff_of_false (not_ends text numbers hzero ?_) fun hcompletes => ?_
    · rw [ipv4Step,if_pos hdigit,if_neg hmany,if_pos hlarge]
    · have hbyte := (hbounds hcompletes).2
      omega
  have hstep : ipv4Step s ch=some { s with
      parts := Function.update s.parts s.part (s.parts s.part*10+(ch.toNat-0x30))
      digitCount := s.digitCount+1 } := by
    rw [ipv4Step,if_pos hdigit,if_neg hmany,if_neg hlarge]
  have hreading : Reading { s with
      parts := Function.update s.parts s.part (s.parts s.part*10+(ch.toNat-0x30))
      digitCount := s.digitCount+1 } (digits++[ch]) := by
    refine ⟨h.part_le,hlength.symm,by omega,hdigits,?_,by omega,fun i hi => ?_⟩
    · rw [hvalue]
      exact Function.update_self ..
    · exact (Function.update_of_ne (Nat.ne_of_gt hi) ..).trans (h.later i hi)
  rw [ends_cons text numbers hzero hstep,ih _ _ hreading]
  unfold Completes
  rw [hsplit]
  have hmap : (List.range s.part).map
      (Function.update s.parts s.part (s.parts s.part*10+(ch.toNat-0x30)))=
        (List.range s.part).map s.parts := by
    refine List.map_congr_left fun i hi => Function.update_of_ne ?_ ..
    exact Nat.ne_of_lt (List.mem_range.mp hi)
  dsimp only
  rw [hmap]

/-- A dot ends a number that is not the last. -/
theorem ends_dot {text : List UInt8} (numbers : List ℕ) (h : Reading s digits)
    (ih : ∀ t digits',Reading t digits' →
      (Ends t text numbers ↔ Completes t digits' (cString text) numbers)) :
    Ends s (dot::text) numbers ↔ Completes s digits (dot::cString text) numbers := by
  have hzero : dot≠0 := by decide
  by_cases hstop : s.digitCount=0 ∨ 3≤ s.part
  · refine iff_of_false (not_ends text numbers hzero ?_) ?_
    · rw [ipv4Step,if_neg not_isDigit_dot,if_pos rfl,if_pos hstop]
    · rintro ⟨values,hdotted,rfl,hlength⟩
      rw [dotted_dot h.isDigit] at hdotted
      obtain ⟨hgroup,rest,rfl,hrest⟩ := hdotted
      rcases hstop with hnone | hlast
      · exact h.isGroup_iff.mp hgroup hnone
      · have hsome := List.length_pos_of_ne_nil (dotted_ne_nil hrest)
        rw [List.length_append,List.length_map,List.length_range,List.length_cons] at hlength
        omega
  have hstep : ipv4Step s dot=some {s with part := s.part+1,digitCount := 0} := by
    rw [ipv4Step,if_neg not_isDigit_dot,if_pos rfl,if_neg hstop]
  have hreading : Reading {s with part := s.part+1,digitCount := 0} [] := by
    refine ⟨?_,rfl,Nat.zero_le _,fun ch hch => absurd hch List.not_mem_nil,?_,Nat.zero_le _,fun i hi => ?_⟩
    · dsimp only
      omega
    · exact h.later (s.part+1) (Nat.lt_succ_self _)
    · exact h.later i (Nat.lt_of_succ_lt hi)
  rw [ends_cons text numbers hzero hstep,ih _ _ hreading]
  have hgroup : IsGroup digits := h.isGroup_iff.mpr fun hnone => hstop (Or.inl hnone)
  have hnumbers : ∀ rest,(List.range (s.part+1)).map s.parts++rest=
      (List.range s.part).map s.parts++digitsValue digits::rest := by
    intro rest
    rw [List.range_succ,List.map_append,List.map_singleton,h.value,List.append_assoc,
      List.singleton_append]
  unfold Completes
  constructor
  · rintro ⟨rest,hdotted,heq,hlength⟩
    refine ⟨digitsValue digits::rest,.more hgroup hdotted,?_,hlength⟩
    rw [heq]
    exact hnumbers rest
  · rintro ⟨values,hdotted,heq,hlength⟩
    obtain ⟨-,rest,rfl,hrest⟩ := (dotted_dot h.isDigit).mp hdotted
    refine ⟨rest,hrest,?_,hlength⟩
    rw [heq]
    exact (hnumbers rest).symm

/-- The loop ends well on the texts of the grammar. -/
theorem ends_iff (text : List UInt8) (numbers : List ℕ) :
    ∀ s digits,Reading s digits →
      (Ends s text numbers ↔ Completes s digits (cString text) numbers) := by
  induction text with
  | nil => exact fun s digits h => ends_of_scan numbers h rfl
  | cons ch text ih =>
    intro s digits h
    by_cases hzero : ch=0
    · subst hzero
      rw [cString_zero]
      exact ends_of_scan numbers h rfl
    rw [cString_cons hzero]
    by_cases hdigit : IsDigit ch
    · exact ends_digit numbers h hzero hdigit ih
    by_cases hdot : ch=dot
    · subst hdot
      exact ends_dot numbers h ih
    -- any other character stops the parser and is in no text of the grammar
    refine iff_of_false (not_ends text numbers hzero ?_) ?_
    · rw [ipv4Step,if_neg hdigit,if_neg hdot]
    · rintro ⟨values,hdotted,-⟩
      have hmem : ch∈digits++ch::cString text :=
        List.mem_append_right _ List.mem_cons_self
      rcases dotted_chars hdotted ch hmem with hbad | hbad
      · exact hdigit hbad
      · exact hdot hbad

end Machine

section Address

/-- The number that four bytes denote. -/
def addressValue (a b c d : ℕ) : ℕ := ((a*256+b)*256+c)*256+d

theorem toNat_ofNat_and_ff {n : ℕ} (h : n≤255) : (UInt32.ofNat n &&& 0xff).toNat=n := by
  have hmask : (0xff : UInt32).toNat=2^8-1 := rfl
  rw [UInt32.toNat_and,hmask,Nat.and_two_pow_sub_one_eq_mod,UInt32.toNat_ofNat']
  omega

theorem shift_or {n low : ℕ} (h : low≤255) : n <<< 8 ||| low=n*256+low := by
  have hlt : low<2^8 := by omega
  rw [← Nat.shiftLeft_add_eq_or_of_lt hlt,Nat.shiftLeft_eq]

theorem toNat_clNetIpv4 {a b c d : ℕ} (ha : a≤255) (hb : b≤255) (hc : c≤255) (hd : d≤255) :
    (clNetIpv4 a b c d).toNat=addressValue a b c d := by
  have h24 : (24 : UInt32).toNat % 32=24 := rfl
  have h16 : (16 : UInt32).toNat % 32=16 := rfl
  have h8 : (8 : UInt32).toNat % 32=8 := rfl
  have hshiftA : a <<< 24 % 2^32=a <<< 8 <<< 8 <<< 8 := by
    rw [← Nat.shiftLeft_add,← Nat.shiftLeft_add,Nat.shiftLeft_eq]
    omega
  have hshiftB : b <<< 16 % 2^32=b <<< 8 <<< 8 := by
    rw [← Nat.shiftLeft_add,Nat.shiftLeft_eq]
    omega
  have hshiftC : c <<< 8 % 2^32=c <<< 8 := by
    rw [Nat.shiftLeft_eq]
    omega
  unfold clNetIpv4
  rw [UInt32.toNat_or,UInt32.toNat_or,UInt32.toNat_or,UInt32.toNat_shiftLeft,
    UInt32.toNat_shiftLeft,UInt32.toNat_shiftLeft,toNat_ofNat_and_ff ha,toNat_ofNat_and_ff hb,
    toNat_ofNat_and_ff hc,toNat_ofNat_and_ff hd,h24,h16,h8,hshiftA,hshiftB,hshiftC,
    ← Nat.shiftLeft_or_distrib,← Nat.shiftLeft_or_distrib,← Nat.shiftLeft_or_distrib,
    shift_or hb,shift_or hc,shift_or hd]
  rfl

/-- The parser succeeds if its loop ends with four numbers. -/
theorem clNetParseIpv4_eq_some_iff (text : List UInt8) (ipv4 : UInt32) :
    clNetParseIpv4 text=some ipv4 ↔
      ∃ a b c d,Ends ⟨fun _ => 0,0,0⟩ text [a,b,c,d] ∧ clNetIpv4 a b c d=ipv4 := by
  unfold clNetParseIpv4 Ends
  constructor
  · intro h
    split at h
    · cases h
    · rename_i t hscan
      split at h
      · cases h
      · rename_i hend
        obtain ⟨hpart,hcount⟩ := not_or.mp hend
        exact ⟨_,_,_,_,⟨t,hscan,not_not.mp hpart,hcount,rfl⟩,Option.some.inj h⟩
  · rintro ⟨a,b,c,d,⟨t,hscan,hpart,hcount,hnumbers⟩,rfl⟩
    have hfour : [a,b,c,d]=[t.parts 0,t.parts 1,t.parts 2,t.parts 3] := hnumbers
    injection hfour with ha hfour
    injection hfour with hb hfour
    injection hfour with hc hfour
    injection hfour with hd hfour
    rw [hscan,ha,hb,hc,hd]
    exact if_neg (not_or.mpr ⟨not_not.mpr hpart,hcount⟩)

/-- Four numbers with dots between them. -/
theorem dotted_four (text : List UInt8) (a b c d : ℕ) :
    Dotted text [a,b,c,d] ↔ ∃ first second third fourth,
      IsGroup first ∧ IsGroup second ∧ IsGroup third ∧ IsGroup fourth ∧
        text=first++dot::(second++dot::(third++dot::fourth)) ∧
          digitsValue first=a ∧ digitsValue second=b ∧ digitsValue third=c ∧
            digitsValue fourth=d := by
  constructor
  · intro h
    cases h with | more hfirst h =>
    cases h with | more hsecond h =>
    cases h with | more hthird h =>
    cases h with
    | more hfourth h => exact absurd rfl (dotted_ne_nil h)
    | last hfourth =>
      exact ⟨_,_,_,_,hfirst,hsecond,hthird,hfourth,rfl,rfl,rfl,rfl,rfl⟩
  · rintro ⟨first,second,third,fourth,hfirst,hsecond,hthird,hfourth,rfl,rfl,rfl,rfl,rfl⟩
    exact .more hfirst (.more hsecond (.more hthird (.last hfourth)))

/-- The parser accepts the texts of the grammar, and computes what they denote. -/
theorem clNetParseIpv4_iff (text : List UInt8) (ipv4 : UInt32) :
    clNetParseIpv4 text=some ipv4 ↔ ∃ first second third fourth,
      IsGroup first ∧ IsGroup second ∧ IsGroup third ∧ IsGroup fourth ∧
        cString text=first++dot::(second++dot::(third++dot::fourth)) ∧
          ipv4.toNat=addressValue (digitsValue first) (digitsValue second)
            (digitsValue third) (digitsValue fourth) := by
  have hreading : Reading ⟨fun _ => 0,0,0⟩ [] :=
    ⟨Nat.zero_le _,rfl,Nat.zero_le _,fun ch hch => absurd hch List.not_mem_nil,rfl,
      Nat.zero_le _,fun i _ => rfl⟩
  have hdotted : ∀ a b c d,Ends ⟨fun _ => 0,0,0⟩ text [a,b,c,d] ↔
      Dotted (cString text) [a,b,c,d] := by
    intro a b c d
    rw [ends_iff text _ _ _ hreading]
    unfold Completes
    constructor
    · rintro ⟨values,hvalues,heq,-⟩
      exact (show [a,b,c,d]=values from heq) ▸ hvalues
    · exact fun h => ⟨_,h,rfl,rfl⟩
  rw [clNetParseIpv4_eq_some_iff]
  constructor
  · rintro ⟨a,b,c,d,hends,rfl⟩
    rw [hdotted,dotted_four] at hends
    obtain ⟨first,second,third,fourth,h₁,h₂,h₃,h₄,htext,rfl,rfl,rfl,rfl⟩ := hends
    exact ⟨first,second,third,fourth,h₁,h₂,h₃,h₄,htext,
      toNat_clNetIpv4 h₁.value_le h₂.value_le h₃.value_le h₄.value_le⟩
  · rintro ⟨first,second,third,fourth,h₁,h₂,h₃,h₄,htext,hvalue⟩
    refine ⟨digitsValue first,digitsValue second,digitsValue third,digitsValue fourth,?_,
      UInt32.toNat_inj.mp ?_⟩
    · rw [hdotted,dotted_four]
      exact ⟨first,second,third,fourth,h₁,h₂,h₃,h₄,htext,rfl,rfl,rfl,rfl⟩
    · rw [hvalue]
      exact toNat_clNetIpv4 h₁.value_le h₂.value_le h₃.value_le h₄.value_le

end Address

section Format

theorem isDigit_add {n : UInt8} (h : n.toNat≤9) : IsDigit (0x30+n) := by
  have hzero : (0x30 : UInt8).toNat=48 := rfl
  have hnine : (0x39 : UInt8).toNat=57 := rfl
  have hsum : (0x30+n).toNat=48+n.toNat := by
    rw [UInt8.toNat_add,hzero]
    omega
  refine ⟨UInt8.le_iff_toNat_le.mpr ?_,UInt8.le_iff_toNat_le.mpr ?_⟩ <;> omega

theorem digit_value {n : UInt8} (h : n.toNat≤9) : (0x30+n).toNat-0x30=n.toNat := by
  have hzero : (0x30 : UInt8).toNat=48 := rfl
  rw [UInt8.toNat_add,hzero]
  omega

/-- The digits are put behind what is there. -/
theorem appendU8Decimal_eq (dst : List UInt8) (value : UInt8) :
    appendU8Decimal dst value=dst++appendU8Decimal [] value := by
  unfold appendU8Decimal
  split
  · rfl
  split <;> rfl

/-- Digits written one by one are a group. -/
theorem isGroup_digits (digits : List UInt8) {value : ℕ} (hsome : digits≠[])
    (hlength : digits.length≤3) (hdigits : ∀ n∈digits,n.toNat≤9)
    (hvalue : digits.foldl (fun value n => value*10+n.toNat) 0=value) (hle : value≤255) :
    IsGroup (digits.map fun n => 0x30+n) ∧ digitsValue (digits.map fun n => 0x30+n)=value := by
  have heq : digitsValue (digits.map fun n => 0x30+n)=value := by
    rw [← hvalue,digitsValue,List.foldl_map]
    refine List.foldl_ext _ _ 0 fun value n hn => ?_
    rw [digit_value (hdigits n hn)]
  refine ⟨⟨fun hnil => hsome (List.map_eq_nil_iff.mp hnil),?_,?_,heq ▸ hle⟩,heq⟩
  · rwa [List.length_map]
  · intro ch hch
    obtain ⟨n,hn,rfl⟩ := List.mem_map.mp hch
    exact isDigit_add (hdigits n hn)

/-- A byte is written as a number of an address. -/
theorem isGroup_decimal (value : UInt8) : IsGroup (appendU8Decimal [] value) ∧
    digitsValue (appendU8Decimal [] value)=value.toNat := by
  have hlt := value.toNat_lt
  have h100 : (100 : UInt8).toNat=100 := rfl
  have h10 : (10 : UInt8).toNat=10 := rfl
  unfold appendU8Decimal
  split
  · rename_i hlarge
    have hhundreds : (value/100).toNat=value.toNat/100 := UInt8.toNat_div ..
    have htens : (value%100/10).toNat=value.toNat%100/10 := by
      rw [UInt8.toNat_div,UInt8.toNat_mod,h100,h10]
    have hones : (value%100%10).toNat=value.toNat%100%10 := by
      rw [UInt8.toNat_mod,UInt8.toNat_mod,h100,h10]
    refine isGroup_digits [value/100,value%100/10,value%100%10] (List.cons_ne_nil _ _)
      (Nat.le_refl 3) ?_ ?_ (by omega)
    · simp only [List.forall_mem_cons,List.not_mem_nil,false_implies,implies_true,and_true,
        hhundreds,htens,hones]
      omega
    · simp only [List.foldl_cons,List.foldl_nil,hhundreds,htens,hones]
      omega
  rename_i hsmall
  rw [UInt8.le_iff_toNat_le,h100] at hsmall
  split
  · have htens : (value/10).toNat=value.toNat/10 := UInt8.toNat_div ..
    have hones : (value%10).toNat=value.toNat%10 := UInt8.toNat_mod ..
    refine isGroup_digits [value/10,value%10] (List.cons_ne_nil _ _) (Nat.le_succ 2)
      ?_ ?_ (by omega)
    · simp only [List.forall_mem_cons,List.not_mem_nil,false_implies,implies_true,and_true,
        htens,hones]
      omega
    · simp only [List.foldl_cons,List.foldl_nil,htens,hones]
      omega
  · rename_i hone
    rw [UInt8.le_iff_toNat_le,h10] at hone
    refine isGroup_digits [value] (List.cons_ne_nil _ _) (Nat.le_add_right 1 2) ?_ ?_
      (by omega)
    · simp only [List.forall_mem_cons,List.not_mem_nil,false_implies,implies_true,and_true]
      omega
    · simp only [List.foldl_cons,List.foldl_nil]
      omega

/-- The loop of the formatter writes the grammar's text. -/
theorem clInetNtop_eq (a b c d : UInt8) {size : ℕ} (h : clInetAddrstrlen≤ size) :
    clInetNtop clAfInet.toNat [a,b,c,d] size=
      some (appendU8Decimal [] a++dot::(appendU8Decimal [] b++dot::(appendU8Decimal [] c++
        dot::appendU8Decimal [] d))++[0]) := by
  unfold clInetNtop
  rw [if_neg (not_or.mpr ⟨not_not.mpr rfl,Nat.not_lt.mpr h⟩)]
  have hget : [a,b,c,d].getD 0 0=a ∧ [a,b,c,d].getD 1 0=b ∧ [a,b,c,d].getD 2 0=c ∧
      [a,b,c,d].getD 3 0=d := ⟨rfl,rfl,rfl,rfl⟩
  obtain ⟨ha,hb,hc,hd⟩ := hget
  dsimp only [List.range,List.range.loop,List.foldl_cons,List.foldl_nil]
  rw [if_neg (not_not.mpr rfl),if_pos Nat.one_ne_zero,if_pos (Nat.succ_ne_zero 1),
    if_pos (Nat.succ_ne_zero 2),ha,hb,hc,hd,appendU8Decimal_eq (_++[dot]) d,
    appendU8Decimal_eq (_++[dot]) c,appendU8Decimal_eq (_++[dot]) b]
  simp only [List.append_assoc,List.cons_append,List.nil_append]

theorem swap32_bytes (a b c d : UInt8) :
    swap32 (clNetIpv4 a.toNat b.toNat c.toNat d.toNat)=loadLe32 [a,b,c,d] := by
  simp only [clNetIpv4,loadLe32,List.take,List.zipIdx,List.foldl,swap32]
  apply UInt32.toBitVec_inj.mp
  ext i hi
  interval_cases i <;> simp

/-- The bytes of an address that was stored. -/
theorem storeLe32_eq (address : UInt32) : storeLe32 address 4=[(address >>> 0).toUInt8,
    (address >>> 8).toUInt8,(address >>> 16).toUInt8,(address >>> 24).toUInt8] := rfl

/-- The two directions: the parser decides the grammar, and reads what was written. -/
theorem ipv4_text :
    (∀ text ipv4,clNetParseIpv4 text=some ipv4 ↔ ∃ first second third fourth,
      IsGroup first ∧ IsGroup second ∧ IsGroup third ∧ IsGroup fourth ∧
        cString text=first++dot::(second++dot::(third++dot::fourth)) ∧
          ipv4.toNat=addressValue (digitsValue first) (digitsValue second)
            (digitsValue third) (digitsValue fourth)) ∧
    ∀ address size,clInetAddrstrlen≤ size → ∃ text,
      clInetNtop clAfInet.toNat (storeLe32 address 4) size=some text ∧ text.length≤ size ∧
        ∀ rest,clInetPton clAfInet.toNat (text++rest)=(1,some address) := by
  refine ⟨clNetParseIpv4_iff,fun address size hsize => ?_⟩
  obtain ⟨a,b,c,d,hbytes⟩ : ∃ a b c d,storeLe32 address 4=[a,b,c,d] := ⟨_,_,_,_,storeLe32_eq _⟩
  have haddress : swap32 (clNetIpv4 a.toNat b.toNat c.toNat d.toNat)=address := by
    rw [swap32_bytes,← hbytes]
    exact loadLe32_storeLe32 address
  obtain ⟨hga,hva⟩ := isGroup_decimal a
  obtain ⟨hgb,hvb⟩ := isGroup_decimal b
  obtain ⟨hgc,hvc⟩ := isGroup_decimal c
  obtain ⟨hgd,hvd⟩ := isGroup_decimal d
  rw [hbytes]
  refine ⟨_,clInetNtop_eq a b c d hsize,?_,fun rest => ?_⟩
  · have ha := hga.length_le
    have hb := hgb.length_le
    have hc := hgc.length_le
    have hd := hgd.length_le
    have hlongest : clInetAddrstrlen=16 := rfl
    simp only [List.length_append,List.length_cons,List.length_nil]
    omega
  have hparse : clNetParseIpv4 (appendU8Decimal [] a++dot::(appendU8Decimal [] b++
      dot::(appendU8Decimal [] c++dot::appendU8Decimal [] d))++[0]++rest)=
        some (clNetIpv4 a.toNat b.toNat c.toNat d.toNat) := by
    rw [clNetParseIpv4_iff]
    refine ⟨_,_,_,_,hga,hgb,hgc,hgd,?_,?_⟩
    · exact cString_text fun ch hch => dotted_ne_zero (dotted_four _ _ _ _ _ |>.mpr
        ⟨_,_,_,_,hga,hgb,hgc,hgd,rfl,rfl,rfl,rfl,rfl⟩) ch hch
    · rw [hva,hvb,hvc,hvd]
      refine toNat_clNetIpv4 ?_ ?_ ?_ ?_ <;> exact Nat.le_of_lt_succ (UInt8.toNat_lt _)
  unfold clInetPton clInetAton
  rw [if_neg (not_not.mpr rfl),hparse]
  dsimp only
  rw [haddress]

/-- The loopback address goes through its text. -/
theorem ipv4_text_loopback :
    (clInetNtop clAfInet.toNat (storeLe32 0x0100007f 4) 16).map (clInetPton clAfInet.toNat)=
      some (1,some 0x0100007f) := by
  obtain ⟨text,htext,-,hback⟩ := ipv4_text.2 0x0100007f 16 (Nat.le_refl 16)
  have hwhole := hback []
  rw [List.append_nil] at hwhole
  rw [htext,Option.map_some,hwhole]

end Format

end ChisLink.Ipv4Text
