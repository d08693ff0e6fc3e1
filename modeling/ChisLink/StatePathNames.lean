import ChisLink.StatePaths

/-!
# Legal names of saved states

Whatever bytes the path of a game has, the path of its saved state fits its buffer and names
a directory that a file system takes: not empty, not too long, without bytes that are not
allowed and without a space or a dot at its end. It consists of whole units of the name.
-/

namespace ChisLink.StatePathNames

open StatePaths StorageClient Utf8Units

/-- The text in the buffer. -/
def textOf (s : StatePath) : List UInt8 := (List.range s.at').map s.cells

/-- What is written for a unit of the name. -/
def cleanUnit : List UInt8 → List UInt8
  | [b] => if isIllegal b=true ∨ 128≤b.toNat then [0x5f] else [b]
  | unit => unit

/-- A space or a dot. -/
def isTrimmed (b : UInt8) : Bool := b=0x20 || b=0x2e

section Buffer

variable {s : StatePath} {b : UInt8} {text rest : List UInt8}

@[simp] theorem length_textOf (s : StatePath) : (textOf s).length=s.at' := by
  unfold textOf
  rw [List.length_map,List.length_range]

/-- A write at or behind the end of the text does not change it. -/
theorem map_update_range {cells : ℕ → UInt8} {n i : ℕ} (h : n≤ i) (b : UInt8) :
    (List.range n).map (Function.update cells i b)=(List.range n).map cells := by
  apply List.map_congr_left
  intro k hk
  have hlt := List.mem_range.mp hk
  have hne : k≠i := by
    omega
  exact Function.update_of_ne hne b cells

theorem put_textOf (h : s.at'< statePathSize) (b : UInt8) :
    ∃ t,put b s=some t ∧ textOf t=textOf s++[b] := by
  unfold put
  rw [if_pos h]
  refine ⟨_,rfl,?_⟩
  unfold textOf
  dsimp only
  rw [List.range_succ,List.map_append,map_update_range (le_refl s.at'),List.map_singleton,
    Function.update_self]

theorem terminate_textOf (h : s.at'< statePathSize) :
    ∃ t,terminate s=some t ∧ textOf t=textOf s ∧ t.cells t.at'=0 := by
  unfold terminate
  rw [if_pos h]
  refine ⟨_,rfl,?_,?_⟩
  · unfold textOf
    dsimp only
    rw [map_update_range (le_refl s.at')]
  · exact Function.update_self _ _ _

theorem putAll_textOf (h : s.at'+rest.length≤ statePathSize) :
    ∃ t,putAll rest s=some t ∧ textOf t=textOf s++rest := by
  induction rest generalizing s with
  | nil => exact ⟨s,rfl,(List.append_nil _).symm⟩
  | cons b rest ih =>
    rw [List.length_cons] at h
    obtain ⟨t,hput,htext⟩ := put_textOf (by omega : s.at'< statePathSize) b
    have hat : t.at'=s.at'+1 := by
      rw [← length_textOf,htext,List.length_append,length_textOf]
      rfl
    obtain ⟨u,hall,hrest⟩ := ih (by omega : t.at'+rest.length≤ statePathSize)
    refine ⟨u,?_,?_⟩
    · unfold putAll
      rw [hput]
      exact hall
    · rw [hrest,htext,List.append_assoc,List.singleton_append]

/-- An append that fits succeeds. -/
theorem bridgePathAppend_textOf (h : s.at'+text.length< statePathSize) :
    ∃ t,bridgePathAppend text s=some (0,t) ∧ textOf t=textOf s++text ∧ t.cells t.at'=0 := by
  induction text generalizing s with
  | nil =>
    obtain ⟨t,hterminate,htext,hzero⟩ := terminate_textOf h
    refine ⟨t,?_,?_,hzero⟩
    · unfold bridgePathAppend
      rw [hterminate]
      rfl
    · rw [htext,List.append_nil]
  | cons b text ih =>
    rw [List.length_cons] at h
    obtain ⟨t,hput,htext⟩ := put_textOf (by omega : s.at'< statePathSize) b
    have hat : t.at'=s.at'+1 := by
      rw [← length_textOf,htext,List.length_append,length_textOf]
      rfl
    obtain ⟨u,happend,hrest,hzero⟩ := ih (by omega : t.at'+text.length< statePathSize)
    refine ⟨u,?_,?_,hzero⟩
    · unfold bridgePathAppend
      rw [if_neg (by omega),hput]
      exact happend
    · rw [hrest,htext,List.append_assoc,List.singleton_append]

@[simp] theorem textOf_mkdir (makeDirs : Bool) (s : StatePath) :
    textOf (mkdir makeDirs s)=textOf s := by
  cases makeDirs <;> rfl

end Buffer

section Bytes

variable {lead b : UInt8} {rest unit : List UInt8}

theorem startWidth_eq (lead : UInt8) : startWidth lead=leadWidth lead := by
  have hbytes : ∀ n<256,startWidth (UInt8.ofNat n)=leadWidth (UInt8.ofNat n) := by
    decide +kernel
  have hlead := hbytes lead.toNat lead.toNat_lt
  rw [UInt8.ofNat_toNat] at hlead
  exact hlead

theorem and_continuation (b : UInt8) : b &&& 0xc0=0x80 ↔ IsContinuation b := by
  have hbits : ∀ n<256,(n &&& 192=128 ↔ n/64=2) := by
    decide +kernel
  rw [← UInt8.toNat_inj,UInt8.toNat_and]
  exact hbits b.toNat b.toNat_lt

/-- The bytes that are replaced are plain characters. -/
theorem isIllegal_eq_false (h : 128≤b.toNat) : isIllegal b=false := by
  have hbytes : ∀ n<256,128≤n → isIllegal (UInt8.ofNat n)=false := by
    decide +kernel
  have hb := hbytes b.toNat b.toNat_lt h
  rw [UInt8.ofNat_toNat] at hb
  exact hb

theorem leadWidth_of_small (h : lead.toNat<128) : leadWidth lead=1 := by
  unfold leadWidth
  rw [if_pos h]

/-- The width of a unit of several bytes. -/
theorem bridgeUtf8Width_begins (h : Begins lead rest) :
    bridgeUtf8Width (lead::rest)=leadWidth lead := by
  obtain ⟨hmany,hroom,hrest⟩ := h
  have hall : ((rest.take (leadWidth lead-1)).all fun b => b &&& 0xc0=0x80)=true := by
    rw [List.all_eq_true]
    intro b hb
    exact decide_eq_true ((and_continuation b).mpr (hrest b hb))
  unfold bridgeUtf8Width
  dsimp only
  rw [startWidth_eq,if_neg (by omega),if_pos hall]

/-- A plain character is a unit. -/
theorem bridgeUtf8Width_small (h : lead.toNat<128) : bridgeUtf8Width (lead::rest)=1 := by
  have hone := leadWidth_of_small h
  unfold bridgeUtf8Width
  dsimp only
  rw [startWidth_eq,hone,if_neg (by omega)]
  rfl

/-- Any other byte begins no unit. -/
theorem bridgeUtf8Width_other (hlarge : 128≤ lead.toNat) (h : ¬Begins lead rest) :
    bridgeUtf8Width (lead::rest)=0 := by
  have hwidth : leadWidth lead≠1 := by
    unfold leadWidth
    rw [if_neg (by omega)]
    split
    · decide
    split
    · decide
    split
    · decide
    · decide
  unfold bridgeUtf8Width
  dsimp only
  rw [startWidth_eq]
  split
  · rfl
  next hroom =>
    rw [if_neg]
    intro hall
    apply h
    refine ⟨by omega,by omega,fun b hb => ?_⟩
    exact (and_continuation b).mp (of_decide_eq_true (List.all_eq_true.mp hall b hb))

/-- Every byte of an encoding in several bytes is large. -/
theorem large_of_multibyte (h : IsMultibyte unit) : ∀ b∈unit,128≤b.toNat := by
  cases unit with
  | nil => exact h.elim
  | cons lead rest =>
    obtain ⟨hne,hwidth,hrest⟩ := h
    have hpos := List.length_pos_iff.mpr hne
    intro b hb
    rcases List.mem_cons.mp hb with rfl | hmem
    · by_contra hsmall
      have hone := leadWidth_of_small (Nat.not_le.mp hsmall)
      omega
    · have hcontinuation := hrest b hmem
      unfold IsContinuation at hcontinuation
      omega

theorem cleanUnit_singleton (lead : UInt8) :
    cleanUnit [lead]=if isIllegal lead=true ∨ 128≤ lead.toNat then [0x5f] else [lead] := rfl

theorem cleanUnit_multibyte (h : IsMultibyte unit) : cleanUnit unit=unit := by
  match unit,h with
  | [lead],h => exact absurd rfl h.1
  | _::_::_,_ => rfl

/-- What is written for a unit is one plain byte or the unit. -/
theorem cleanUnit_cases (h : (∃ lead,unit=[lead]) ∨ IsMultibyte unit) :
    (∃ b,cleanUnit unit=[b] ∧ isIllegal b=false) ∨
      (IsMultibyte unit ∧ cleanUnit unit=unit) := by
  rcases h with ⟨lead,rfl⟩ | hmulti
  · left
    rw [cleanUnit_singleton]
    by_cases hbad : isIllegal lead=true ∨ 128≤ lead.toNat
    · rw [if_pos hbad]
      exact ⟨0x5f,rfl,by decide⟩
    · rw [if_neg hbad]
      exact ⟨lead,rfl,(Bool.not_eq_true _).mp fun h => hbad (Or.inl h)⟩
  · exact Or.inr ⟨hmulti,cleanUnit_multibyte hmulti⟩

end Bytes

section Copy

variable {s t : StatePath} {start rounds : ℕ} {lead : UInt8} {rest : List UInt8}

theorem unitLength_small (h : lead.toNat<128) (rest : List UInt8) :
    unitLength (lead::rest)=1 := by
  have hone := leadWidth_of_small h
  rw [unitLength_cons,if_neg]
  intro hbegins
  have hmany := hbegins.1
  omega

/-- What the width says of the first unit of a name, whose first byte is allowed. -/
theorem bridgeUtf8Width_spec (h : isIllegal lead=false) :
    (bridgeUtf8Width (lead::rest)=0 ∧ unitLength (lead::rest)=1 ∧ cleanUnit [lead]=[0x5f]) ∨
      (bridgeUtf8Width (lead::rest)≠0 ∧
        bridgeUtf8Width (lead::rest)=unitLength (lead::rest) ∧
        cleanUnit ((lead::rest).take (unitLength (lead::rest)))=
          (lead::rest).take (unitLength (lead::rest))) := by
  by_cases hbegins : Begins lead rest
  · right
    have hwidth := bridgeUtf8Width_begins hbegins
    have hlength : unitLength (lead::rest)=leadWidth lead := by
      rw [unitLength_cons,if_pos hbegins]
    have hmany := hbegins.1
    refine ⟨by omega,hwidth.trans hlength.symm,?_⟩
    rcases take_unitLength (List.cons_ne_nil lead rest) with ⟨b,hb⟩ | hmulti
    · have hshort := congrArg List.length hb
      have hle := unitLength_le (lead::rest)
      rw [List.length_take,List.length_singleton] at hshort
      omega
    · exact cleanUnit_multibyte hmulti
  · by_cases hsmall : lead.toNat<128
    · right
      have hone := @bridgeUtf8Width_small lead rest hsmall
      have hlength := unitLength_small hsmall rest
      refine ⟨by omega,hone.trans hlength.symm,?_⟩
      rw [hlength,List.take_succ_cons,List.take_zero,cleanUnit_singleton,if_neg]
      rintro (hbad | hlarge)
      · rw [h] at hbad
        cases hbad
      · omega
    · left
      refine ⟨bridgeUtf8Width_other (Nat.not_lt.mp hsmall) hbegins,?_,?_⟩
      · rw [unitLength_cons,if_neg hbegins]
      · rw [cleanUnit_singleton,if_pos (Or.inr (Nat.not_lt.mp hsmall))]

theorem copyName_succ (start rounds : ℕ) (ch : UInt8) (rest : List UInt8) (s : StatePath) :
    copyName start (rounds+1) (ch::rest) s=
      if isIllegal ch=true then
        if 200<s.at'-start+1 ∨ statePathSize≤ s.at'+1 then some s
        else (put 0x5f s).bind (copyName start rounds rest)
      else
        let found := bridgeUtf8Width (ch::rest)
        let width := if found=0 then 1 else found
        let ch' := if found=0 then 0x5f else ch
        if 200<s.at'-start+width ∨ statePathSize≤ s.at'+width then some s
        else if ch'=0x5f then
          (put 0x5f s).bind (copyName start rounds ((ch::rest).drop width))
        else
          (putAll ((ch::rest).take width) s).bind
            (copyName start rounds ((ch::rest).drop width)) := rfl

/-- A round of the copy takes a unit or ends the copy. -/
theorem copyName_round (hstart : start+200< statePathSize) (hat : s.at'≤ start+200) :
    copyName start (rounds+1) (lead::rest) s=some s ∨
      ∃ t,textOf t=textOf s++cleanUnit ((lead::rest).take (unitLength (lead::rest))) ∧
        t.at'≤ start+200 ∧
        copyName start (rounds+1) (lead::rest) s=
          copyName start rounds ((lead::rest).drop (unitLength (lead::rest))) t := by
  have hgrows : ∀ {t : StatePath} {more : List UInt8},textOf t=textOf s++more →
      t.at'=s.at'+more.length := by
    intro t more h
    rw [← length_textOf,h,List.length_append,length_textOf]
  -- a byte that is replaced by an underscore
  have hreplaced : ¬(200<s.at'-start+1 ∨ statePathSize≤ s.at'+1) →
      ∃ t,put 0x5f s=some t ∧ textOf t=textOf s++[0x5f] ∧ t.at'≤ start+200 := by
    intro hroom
    obtain ⟨t,hput,htext⟩ := put_textOf (by omega : s.at'< statePathSize) 0x5f
    have hlength := hgrows htext
    rw [List.length_singleton] at hlength
    exact ⟨t,hput,htext,by omega⟩
  rw [copyName_succ]
  by_cases hillegal : isIllegal lead=true
  · have hsmall : lead.toNat<128 := by
      by_contra hlarge
      rw [isIllegal_eq_false (Nat.not_lt.mp hlarge)] at hillegal
      cases hillegal
    rw [if_pos hillegal,unitLength_small hsmall]
    split
    · exact Or.inl rfl
    next hroom =>
      obtain ⟨t,hput,htext,hle⟩ := hreplaced hroom
      refine Or.inr ⟨t,?_,hle,?_⟩
      · rw [htext,List.take_succ_cons,List.take_zero,cleanUnit_singleton,
          if_pos (Or.inl hillegal)]
      · rw [hput]
        rfl
  rw [if_neg hillegal]
  dsimp only
  rcases @bridgeUtf8Width_spec lead rest ((Bool.not_eq_true _).mp hillegal) with
    ⟨hfound,hlength,hclean⟩ | ⟨hfound,hlength,hclean⟩
  · rw [if_pos hfound,if_pos hfound,hlength]
    split
    · exact Or.inl rfl
    next hroom =>
      obtain ⟨t,hput,htext,hle⟩ := hreplaced hroom
      refine Or.inr ⟨t,?_,hle,?_⟩
      · rw [htext,List.take_succ_cons,List.take_zero,hclean]
      · rw [if_pos rfl,hput]
        rfl
  · rw [if_neg hfound,if_neg hfound,hlength,hclean]
    split
    · exact Or.inl rfl
    next hroom =>
      by_cases hunderscore : lead=0x5f
      · have hone : unitLength (lead::rest)=1 :=
          unitLength_small (by rw [hunderscore]; decide) rest
        rw [hone] at hroom ⊢
        obtain ⟨t,hput,htext,hle⟩ := hreplaced hroom
        refine Or.inr ⟨t,?_,hle,?_⟩
        · rw [htext,List.take_succ_cons,List.take_zero,hunderscore]
        · rw [if_pos hunderscore,hput]
          rfl
      · have htake : ((lead::rest).take (unitLength (lead::rest))).length=
            unitLength (lead::rest) := by
          rw [List.length_take]
          exact Nat.min_eq_left (unitLength_le _)
        obtain ⟨t,hall,htext⟩ := @putAll_textOf s
          ((lead::rest).take (unitLength (lead::rest))) (by omega)
        have hlong := hgrows htext
        refine Or.inr ⟨t,htext,by omega,?_⟩
        rw [if_neg hunderscore,hall]
        rfl

/-- The copy writes what some of the first units come to. -/
theorem copyName_units {name : List UInt8} (hstart : start+200< statePathSize)
    (hat : s.at'≤ start+200) (hrounds : name.length≤ rounds) :
    ∃ t n,copyName start rounds name s=some t ∧
      textOf t=textOf s++(((units name).take n).map cleanUnit).flatten ∧
      t.at'≤ start+200 := by
  induction rounds generalizing name s with
  | zero => exact ⟨s,0,rfl,(List.append_nil _).symm,hat⟩
  | succ rounds ih =>
    cases name with
    | nil => exact ⟨s,0,rfl,(List.append_nil _).symm,hat⟩
    | cons lead rest =>
      rcases @copyName_round s start rounds lead rest hstart hat with hend | ⟨t,htext,hle,hnext⟩
      · exact ⟨s,0,hend,(List.append_nil _).symm,hat⟩
      · have hpos := unitLength_pos (List.cons_ne_nil lead rest)
        rw [List.length_cons] at hrounds
        have hshort : ((lead::rest).drop (unitLength (lead::rest))).length≤ rounds := by
          rw [List.length_drop,List.length_cons]
          omega
        obtain ⟨u,n,hcopy,hrest,hroom⟩ := ih hle hshort
        refine ⟨u,n+1,hnext.trans hcopy,?_,hroom⟩
        rw [hrest,htext,units_of_ne_nil (List.cons_ne_nil lead rest),List.take_succ_cons,
          List.map_cons,List.flatten_cons,List.append_assoc]

end Copy

section Trim

variable {s : StatePath} {base component : List UInt8}

/-- The component loses the spaces and dots at its end. -/
theorem trimEnd_text {cells : ℕ → UInt8} {n : ℕ}
    (h : (List.range n).map cells=base++component) :
    (List.range (trimEnd cells base.length n)).map cells=
      base++component.rdropWhile isTrimmed := by
  induction component using List.reverseRecOn generalizing n with
  | nil =>
    have hlength := congrArg List.length h
    rw [List.length_map,List.length_range,List.append_nil] at hlength
    have hstays : trimEnd cells base.length n=n := by
      cases n with
      | zero => rfl
      | succ n =>
        unfold trimEnd
        rw [if_neg (by omega)]
    rw [hstays,h,List.rdropWhile_nil]
  | append_singleton component b ih =>
    cases n with
    | zero =>
      have hlength := congrArg List.length h
      rw [List.length_map,List.length_range,List.length_append,List.length_append] at hlength
      exact absurd hlength (by rw [List.length_singleton]; omega)
    | succ n =>
      rw [List.range_succ,List.map_append,List.map_singleton,← List.append_assoc] at h
      obtain ⟨hfront,hlast⟩ := List.append_inj' h rfl
      have hb : cells n=b := List.singleton_inj.mp hlast
      have hlength := congrArg List.length hfront
      rw [List.length_map,List.length_range,List.length_append] at hlength
      have hcells : (cells n=0x20 ∨ cells n=0x2e) ↔ isTrimmed b=true := by
        unfold isTrimmed
        rw [hb,Bool.or_eq_true,decide_eq_true_iff,decide_eq_true_iff]
      unfold trimEnd
      by_cases htrim : isTrimmed b=true
      · rw [if_pos ⟨by omega,hcells.mpr htrim⟩,List.rdropWhile_concat_pos _ _ _ htrim]
        exact ih hfront
      · rw [if_neg fun h => htrim (hcells.mp h.2),List.rdropWhile_concat_neg _ _ _ htrim,
          List.range_succ,List.map_append,List.map_singleton,hfront,hb,List.append_assoc]

end Trim

section Parts

variable {path name dir stem ext a seq b : List UInt8}

/-- The directories of a path: none, or what ends with a slash. -/
def IsDirectory (dir : List UInt8) : Prop := dir=[] ∨ dir.getLast?=some 0x2f

/-- The extension of a name: none, or what begins with a dot. -/
def IsExtension (ext : List UInt8) : Prop := ext=[] ∨ ext.head?=some 0x2e

/-- The name begins behind a slash or at the beginning. -/
theorem afterSlash_split {rest before : List UInt8} (hname : path=dir++name)
    (hrest : path=before++rest) (hdir : IsDirectory dir) :
    ∃ dir',path=dir'++afterSlash name rest ∧ IsDirectory dir' := by
  induction rest generalizing name dir before with
  | nil => exact ⟨dir,hname,hdir⟩
  | cons c rest ih =>
    have hnext : path=(before++[c])++rest := by
      rw [hrest,List.append_assoc,List.singleton_append]
    unfold afterSlash
    by_cases hslash : c=0x2f
    · rw [if_pos hslash]
      refine ih hnext hnext (Or.inr ?_)
      rw [List.getLast?_append,hslash]
      rfl
    · rw [if_neg hslash]
      exact ih hname hnext hdir

/-- The last dot is a dot. -/
theorem lastDot_some {i k : ℕ} {dot : Option ℕ} (h : lastDot i dot name=some k) :
    dot=some k ∨ (i≤k ∧ name[k-i]?=some 0x2e) := by
  induction name generalizing i dot with
  | nil => exact Or.inl h
  | cons c rest ih =>
    unfold lastDot at h
    rcases ih h with hdot | ⟨hle,hc⟩
    · by_cases hc : c=0x2e
      · rw [if_pos hc] at hdot
        cases hdot
        refine Or.inr ⟨le_rfl,?_⟩
        rw [Nat.sub_self,List.getElem?_cons_zero,hc]
      · rw [if_neg hc] at hdot
        exact Or.inl hdot
    · refine Or.inr ⟨by omega,?_⟩
      have hsucc : k-i=k-(i+1)+1 := by
        omega
      rw [hsucc,List.getElem?_cons_succ,hc]

/-- The parts of a path around the name that is used. -/
theorem nameOf_split (path : List UInt8) :
    ∃ dir ext,path=dir++nameOf path++ext ∧ IsDirectory dir ∧ IsExtension ext := by
  obtain ⟨dir,hpath,hdir⟩ := @afterSlash_split path path [] path [] rfl rfl (Or.inl rfl)
  unfold nameOf
  dsimp only
  split
  next i hdot =>
    rcases lastDot_some hdot with hnone | ⟨-,hc⟩
    · cases hnone
    · refine ⟨dir,(afterSlash path path).drop (i+1),?_,hdir,Or.inr ?_⟩
      · rw [List.append_assoc,List.take_append_drop]
        exact hpath
      · rw [List.head?_drop]
        exact hc
  next =>
    exact ⟨dir,[],by rw [List.append_nil]; exact hpath,hdir,Or.inl rfl⟩

/-- The bytes of an encoding in a path are large. -/
theorem large_at (hpath : path=a++seq++b) (h : IsMultibyte seq) {k : ℕ} {c : UInt8}
    (hle : a.length≤k) (hlt : k<a.length+seq.length) (hc : path[k]?=some c) :
    128≤ c.toNat := by
  rw [hpath,List.append_assoc,List.getElem?_append_right hle,
    List.getElem?_append_left (by omega)] at hc
  exact large_of_multibyte h c (List.mem_of_getElem? hc)

/-- An encoding in a path lies in one of its parts. In the name it is a unit. -/
theorem multibyte_cases (hpath : path=dir++stem++ext) (hdir : IsDirectory dir)
    (hext : IsExtension ext) (hseq : path=a++seq++b) (h : IsMultibyte seq) :
    a.length+seq.length≤ dir.length ∨ dir.length+stem.length≤a.length ∨
      ∃ before after,units stem=before++seq::after ∧ dir++before.flatten=a := by
  by_cases hfront : a.length+seq.length≤ dir.length
  · exact Or.inl hfront
  by_cases hback : dir.length+stem.length≤a.length
  · exact Or.inr (Or.inl hback)
  have hleft : dir.length≤a.length := by
    by_contra hinside
    rcases hdir with rfl | hslash
    · exact hinside (Nat.zero_le _)
    · have hlast : path[dir.length-1]?=some 0x2f := by
        rw [hpath,List.append_assoc,List.getElem?_append_left (by omega),
          ← List.getLast?_eq_getElem?]
        exact hslash
      have hlarge := large_at hseq h (by omega) (by omega) hlast
      exact absurd hlarge (by decide)
  have hright : a.length+seq.length≤ dir.length+stem.length := by
    by_contra hover
    have hlength : path.length=a.length+seq.length+b.length := by
      rw [hseq,List.length_append,List.length_append]
    have hparts : path.length=dir.length+stem.length+ext.length := by
      rw [hpath,List.length_append,List.length_append]
    rcases hext with rfl | hdot
    · rw [List.length_nil] at hparts
      omega
    · have hfirst : path[dir.length+stem.length]?=some 0x2e := by
        rw [hpath,List.getElem?_append_right (by rw [List.length_append]),List.length_append,
          Nat.sub_self,← List.head?_eq_getElem?]
        exact hdot
      have hlarge := large_at hseq h (by omega) (by omega) hfirst
      exact absurd hlarge (by decide)
  have hsame : dir++(stem++ext)=a++(seq++b) := by
    rw [← List.append_assoc,← List.append_assoc,← hpath,← hseq]
  obtain ⟨front,rfl⟩ : ∃ front,a=dir++front := by
    rcases List.append_eq_append_iff.mp hsame with ⟨front,ha,-⟩ | ⟨front,hd,-⟩
    · exact ⟨front,ha⟩
    · refine ⟨[],?_⟩
      have hlength := congrArg List.length hd
      rw [List.length_append] at hlength
      rw [List.append_nil,hd,List.eq_nil_of_length_eq_zero (by omega : front.length=0),
        List.append_nil]
  rw [List.append_assoc,List.append_cancel_left_eq,← List.append_assoc] at hsame
  rw [List.length_append] at hright
  obtain ⟨behind,hstem⟩ : ∃ behind,stem=front++seq++behind := by
    rcases List.append_eq_append_iff.mp hsame with ⟨behind,hf,-⟩ | ⟨behind,hs,-⟩
    · have hlength := congrArg List.length hf
      rw [List.length_append,List.length_append] at hlength
      refine ⟨[],?_⟩
      rw [List.append_nil,hf,List.eq_nil_of_length_eq_zero (by omega : behind.length=0),
        List.append_nil]
    · exact ⟨behind,hs⟩
  obtain ⟨before,after,hunits,hflatten⟩ := units_split h hstem
  exact Or.inr (Or.inr ⟨before,after,hunits,by rw [hflatten]⟩)

end Parts

/-- A name that a file system takes. -/
structure LegalName (component : List UInt8) : Prop where
  /-- It is not empty. -/
  ne_nil : component≠[]
  /-- It is not too long. -/
  length_le : component.length≤200
  /-- It has no control bytes and none of the nine characters. -/
  legal : ∀ b∈component,0x20≤b.toNat ∧
    b∉([0x3c,0x3e,0x3a,0x22,0x2f,0x5c,0x7c,0x3f,0x2a] : List UInt8)
  /-- It ends in neither a space nor a dot. -/
  last : ∀ b,component.getLast?=some b → b≠0x20 ∧ b≠0x2e

/-- A well-formed encoding of a character in several bytes. -/
def WellFormed (seq : List UInt8) : Prop :=
  ∃ c : Char,seq=String.utf8EncodeChar c ∧ 1<seq.length

/-- What some units of a name come to, or else the name that is used without one. -/
def componentOf (name : List UInt8) (n : ℕ) : List UInt8 :=
  let pieces := (((units name).take n).map cleanUnit).flatten
  if pieces=[] then gameName else pieces

/-- The component consists of whole units of the name in a path. Of the encodings in the path
none reaches over an end of the name, and each in the name is a unit that is kept as it is. -/
def WholeUnits (path component : List UInt8) : Prop :=
  ∃ dir name ext n,path=dir++name++ext ∧ component=componentOf name n ∧
    ∀ a seq b,path=a++seq++b → WellFormed seq →
      a.length+seq.length≤ dir.length ∨ dir.length+name.length≤a.length ∨
        (cleanUnit seq=seq ∧
          ∃ before after,units name=before++seq::after ∧ dir++before.flatten=a)

/-- The directories of the saved states of an emulator. -/
def statesDirectory (emulator : Emulator) : List UInt8 :=
  chislinkDirectory++[0x2f]++emulator.name++savestateDirectory++[0x2f]

/-- The name of the file in the directory of a game. -/
def stateFile (slot : UInt8) : List UInt8 := stateName++slotDigits slot++savExtension

/-- The buffer holds the path of a saved state. -/
structure HoldsPath (emulator : Emulator) (path : List UInt8) (slot : UInt8)
    (component : List UInt8) (t : StatePath) : Prop where
  /-- The text is made of the directories, the component of the game and the file. -/
  text_eq : textOf t=statesDirectory emulator++component++stateFile slot
  /-- It fits, with the byte behind it. -/
  fits : t.at'< statePathSize
  /-- It is terminated there. -/
  terminated : t.cells t.at'=0
  /-- And not before. -/
  nonzero : ∀ i<t.at',t.cells i≠0
  /-- The component is legal. -/
  legal : LegalName component
  /-- It is made of whole units. -/
  whole : WholeUnits path component

section Component

variable {s : StatePath} {name pieces : List UInt8}

theorem legal_of_isIllegal {b : UInt8} (h : isIllegal b=false) : 0x20≤b.toNat ∧
    b∉([0x3c,0x3e,0x3a,0x22,0x2f,0x5c,0x7c,0x3f,0x2a] : List UInt8) := by
  unfold isIllegal at h
  rw [Bool.or_eq_false_iff,decide_eq_false_iff_not,UInt8.lt_iff_toNat_lt] at h
  refine ⟨Nat.not_lt.mp h.1,fun hmem => ?_⟩
  rw [List.contains_iff_mem.mpr hmem] at h
  cases h.2

/-- The bytes of the units are allowed. -/
theorem cleanUnit_legal {u : List UInt8} (hu : u∈ units name) {b : UInt8}
    (hb : b∈ cleanUnit u) : isIllegal b=false := by
  rcases cleanUnit_cases (unit_cases hu) with ⟨c,hc,hlegal⟩ | ⟨hmulti,hsame⟩
  · rw [hc] at hb
    rw [List.mem_singleton.mp hb]
    exact hlegal
  · rw [hsame] at hb
    exact isIllegal_eq_false (large_of_multibyte hmulti b hb)

/-- The units that are left after the trimming are whole. -/
theorem trimmed_units (name : List UInt8) (n : ℕ) :
    ∃ m,(((units name).take n).map cleanUnit).flatten.rdropWhile isTrimmed=
      (((units name).take m).map cleanUnit).flatten := by
  have hpieces : ∀ u∈((units name).take n).map cleanUnit,
      (∃ c,u=[c]) ∨ ∃ init last,u=init++[last] ∧ isTrimmed last=false := by
    intro u hu
    obtain ⟨unit,hunit,rfl⟩ := List.mem_map.mp hu
    rcases cleanUnit_cases (unit_cases (List.mem_of_mem_take hunit)) with
      ⟨c,hc,-⟩ | ⟨hmulti,hsame⟩
    · exact Or.inl ⟨c,hc⟩
    · have hne : unit≠[] := by
        rintro rfl
        exact hmulti
      refine Or.inr ⟨unit.dropLast,unit.getLast hne,?_,?_⟩
      · rw [hsame,List.dropLast_append_getLast]
      · have hlarge := large_of_multibyte hmulti _ (List.getLast_mem hne)
        unfold isTrimmed
        rw [Bool.or_eq_false_iff,decide_eq_false_iff_not,decide_eq_false_iff_not,
          ← UInt8.toNat_inj,← UInt8.toNat_inj]
        have hspace : (0x20 : UInt8).toNat=32 := rfl
        have hdot : (0x2e : UInt8).toNat=46 := rfl
        omega
  obtain ⟨m,-,hdrop⟩ := rdropWhile_flatten hpieces
  refine ⟨min m n,?_⟩
  rw [hdrop,← List.map_take,List.take_take]

/-- What is written for a name is legal. -/
theorem componentOf_legal {m : ℕ}
    (hlength : (((units name).take m).map cleanUnit).flatten.length≤200)
    (hlast : ∀ b,(((units name).take m).map cleanUnit).flatten.getLast?=some b →
      isTrimmed b=false) : LegalName (componentOf name m) := by
  unfold componentOf
  dsimp only
  split
  · refine ⟨by decide,by decide,fun b hb => ?_,fun b hb => ?_⟩
    · have hallowed : gameName.all (fun b => isIllegal b==false)=true := by
        decide
      exact legal_of_isIllegal (beq_iff_eq.mp (List.all_eq_true.mp hallowed b hb))
    · have hend : b=101 := by
        cases hb
        rfl
      rw [hend]
      decide
  next hne =>
    refine ⟨hne,hlength,fun b hb => ?_,fun b hb => ?_⟩
    · obtain ⟨u,hu,hmem⟩ := List.mem_flatten.mp hb
      obtain ⟨unit,hunit,rfl⟩ := List.mem_map.mp hu
      exact legal_of_isIllegal (cleanUnit_legal (List.mem_of_mem_take hunit) hmem)
    · have htrim := hlast b hb
      unfold isTrimmed at htrim
      rw [Bool.or_eq_false_iff,decide_eq_false_iff_not,decide_eq_false_iff_not] at htrim
      exact htrim

/-- The component of the game is written behind the directories. -/
theorem writeGame_spec (hstart : s.at'+200< statePathSize) (name : List UInt8) :
    ∃ t m,writeGame name s=some (0,t) ∧ textOf t=textOf s++componentOf name m ∧
      LegalName (componentOf name m) := by
  obtain ⟨t,n,hcopy,htext,hroom⟩ := @copyName_units s s.at' name.length name hstart
    (Nat.le_add_right _ _) le_rfl
  obtain ⟨m,hunits⟩ := trimmed_units name n
  have htrim := @trimEnd_text (textOf s) _ t.cells t.at' htext
  rw [length_textOf,hunits] at htrim
  have hlast : ∀ b,(((units name).take m).map cleanUnit).flatten.getLast?=some b →
      isTrimmed b=false := by
    intro b hb
    rw [← hunits] at hb
    have hne : (((units name).take n).map cleanUnit).flatten.rdropWhile isTrimmed≠[] := by
      intro hnil
      rw [hnil] at hb
      cases hb
    rw [List.getLast?_eq_some_getLast hne] at hb
    cases hb
    exact (Bool.not_eq_true _).mp (List.rdropWhile_last_not isTrimmed _ hne)
  have hrun : writeGame name s=
      let u : StatePath := {t with at' := trimEnd t.cells s.at' t.at'}
      if u.at'=s.at' then bridgePathAppend gameName u else some (0,u) := by
    unfold writeGame
    dsimp only
    rw [hcopy]
    rfl
  have hat : trimEnd t.cells s.at' t.at'=
      s.at'+(((units name).take m).map cleanUnit).flatten.length := by
    have hlength := congrArg List.length htrim
    rw [List.length_map,List.length_range,List.length_append,length_textOf] at hlength
    exact hlength
  have hle : (((units name).take m).map cleanUnit).flatten.length≤200 := by
    have hprefix := (List.rdropWhile_prefix isTrimmed
      (((units name).take n).map cleanUnit).flatten).length_le
    have hlength := congrArg List.length htext
    rw [length_textOf,List.length_append,length_textOf] at hlength
    rw [hunits] at hprefix
    omega
  have hlegal := componentOf_legal hle hlast
  dsimp only at hrun
  by_cases hnil : (((units name).take m).map cleanUnit).flatten=[]
  · have hcomponent : componentOf name m=gameName := if_pos hnil
    rw [hnil,List.length_nil,Nat.add_zero] at hat
    rw [hnil,List.append_nil] at htrim
    have hroomGame : trimEnd t.cells s.at' t.at'+gameName.length< statePathSize := by
      have hfour : gameName.length=4 := rfl
      omega
    obtain ⟨u,happend,hu,-⟩ := @bridgePathAppend_textOf
      {t with at' := trimEnd t.cells s.at' t.at'} gameName hroomGame
    refine ⟨u,m,?_,?_,hlegal⟩
    · rw [hrun,if_pos hat,happend]
    · rw [hu,hcomponent]
      exact congrArg (· ++ gameName) htrim
  · have hcomponent : componentOf name m=(((units name).take m).map cleanUnit).flatten :=
      if_neg hnil
    have hpos := List.length_pos_iff.mpr hnil
    refine ⟨{t with at' := trimEnd t.cells s.at' t.at'},m,?_,?_,hlegal⟩
    · rw [hrun,if_neg (by omega)]
    · rw [hcomponent]
      exact htrim

end Component

section Path

variable {t : StatePath}

theorem length_statesDirectory (emulator : Emulator) :
    (statesDirectory emulator).length≤36 := by
  cases emulator <;> decide

theorem length_stateFile (slot : UInt8) : (stateFile slot).length≤13 := by
  have hdigits : (slotDigits slot).length≤2 := by
    unfold slotDigits
    split
    · exact le_rfl
    · exact Nat.le_succ 1
  have hname : stateName.length=7 := rfl
  have hextension : savExtension.length=4 := rfl
  unfold stateFile
  rw [List.length_append,List.length_append]
  omega

/-- The names that are written around a component have no zero byte. -/
theorem nonzero_around (emulator : Emulator) {slot : UInt8}
    (hslot : slot≤ chislinkStateSlotCount) :
    (∀ b∈ statesDirectory emulator,b≠0) ∧ ∀ b∈ stateFile slot,b≠0 := by
  constructor
  · have hdirectory : (statesDirectory emulator).all (fun b => decide (b≠0))=true := by
      cases emulator <;> decide
    exact fun b hb => of_decide_eq_true (List.all_eq_true.mp hdirectory b hb)
  · have hslots : ∀ n<11,(stateFile (UInt8.ofNat n)).all (fun b => decide (b≠0))=true := by
      decide
    have hlt : slot.toNat<11 := Nat.lt_succ_of_le (UInt8.le_iff_toNat_le.mp hslot)
    have hfile := hslots slot.toNat hlt
    rw [UInt8.ofNat_toNat] at hfile
    exact fun b hb => of_decide_eq_true (List.all_eq_true.mp hfile b hb)

/-- The units of the name in a path. -/
theorem wholeUnits_nameOf (path : List UInt8) (m : ℕ) :
    WholeUnits path (componentOf (nameOf path) m) := by
  obtain ⟨dir,ext,hpath,hdir,hext⟩ := nameOf_split path
  refine ⟨dir,nameOf path,ext,m,hpath,rfl,?_⟩
  rintro a seq b hseq ⟨c,rfl,hlong⟩
  have hmulti := isMultibyte_utf8EncodeChar hlong
  rcases multibyte_cases hpath hdir hext hseq hmulti with hfront | hback | hunit
  · exact Or.inl hfront
  · exact Or.inr (Or.inl hback)
  · exact Or.inr (Or.inr ⟨cleanUnit_multibyte hmulti,hunit⟩)

/-- An append behind a known text. -/
theorem append_next {s : StatePath} {before text : List UInt8} (hs : textOf s=before)
    (hroom : before.length+text.length< statePathSize) :
    ∃ t,bridgePathAppend text s=some (0,t) ∧ textOf t=before++text ∧ t.cells t.at'=0 := by
  have hat : s.at'=before.length := by
    rw [← hs,length_textOf]
  obtain ⟨t,happend,htext,hzero⟩ := @bridgePathAppend_textOf s text (by rw [hat]; exact hroom)
  exact ⟨t,happend,by rw [htext,hs],hzero⟩

/-- An open bridge writes the path of a slot. -/
theorem bridgeStateBuildPath_run (emulator : Emulator) {isOpen : Bool} (path : CString)
    {slot : UInt8} (makeDirs : Bool) (s : StatePath)
    (h : ¬(isOpen=false ∨ slot=0 ∨ chislinkStateSlotCount< slot)) :
    ∃ t m,bridgeStateBuildPath emulator isOpen path slot makeDirs s=some (0,t) ∧
      textOf t=statesDirectory emulator++componentOf (nameOf path.1) m++stateFile slot ∧
      t.cells t.at'=0 ∧ LegalName (componentOf (nameOf path.1) m) := by
  have hdirectory : (chislinkDirectory).length=13 := rfl
  have hstates : savestateDirectory.length=10 := rfl
  have hname : emulator.name.length≤11 := by
    cases emulator <;> decide
  have hbase := length_statesDirectory emulator
  have hfile := length_stateFile slot
  have hsize : statePathSize=320 := rfl
  have hempty : textOf {s with at' := 0}=[] := rfl
  have hslash : ([0x2f] : List UInt8).length=1 := rfl
  -- the directories
  obtain ⟨s₁,hrun₁,htext₁,-⟩ := @terminate_textOf {s with at' := 0}
    (by decide : 0< statePathSize)
  rw [hempty] at htext₁
  obtain ⟨s₂,hrun₂,htext₂,-⟩ := append_next htext₁
    (by rw [List.length_nil]; omega : ([] : List UInt8).length+chislinkDirectory.length<_)
  rw [List.nil_append] at htext₂
  obtain ⟨s₃,hrun₃,htext₃,-⟩ := @append_next (mkdir makeDirs s₂) _ [0x2f]
    ((textOf_mkdir makeDirs s₂).trans htext₂) (by omega)
  obtain ⟨s₄,hrun₄,htext₄,-⟩ := @append_next s₃ _ emulator.name htext₃
    (by rw [List.length_append]; omega)
  obtain ⟨s₅,hrun₅,htext₅,-⟩ := @append_next (mkdir makeDirs s₄) _ savestateDirectory
    ((textOf_mkdir makeDirs s₄).trans htext₄) (by
      rw [List.length_append,List.length_append]
      omega)
  obtain ⟨s₆,hrun₆,htext₆,-⟩ := @append_next (mkdir makeDirs s₅) _ [0x2f]
    ((textOf_mkdir makeDirs s₅).trans htext₅) (by
      rw [List.length_append,List.length_append,List.length_append]
      omega)
  have hat₆ : s₆.at'≤36 := by
    rw [← length_textOf,htext₆]
    exact hbase
  -- the game
  obtain ⟨s₇,m,hrun₇,htext₇,hlegal⟩ := @writeGame_spec s₆ (by omega) (nameOf path.1)
  have hcomponent := hlegal.length_le
  have hat₇ : s₇.at'=s₆.at'+(componentOf (nameOf path.1) m).length := by
    rw [← length_textOf,htext₇,List.length_append,length_textOf]
  obtain ⟨s₈,hrun₈,htext₈,-⟩ := @terminate_textOf s₇ (by omega)
  have hat₈ : s₈.at'=s₇.at' := by
    rw [← length_textOf,htext₈,length_textOf]
  -- the file
  have hdigits : stateName.length+(slotDigits slot).length+savExtension.length≤13 := by
    unfold stateFile at hfile
    rw [List.length_append,List.length_append] at hfile
    exact hfile
  obtain ⟨s₉,hrun₉,htext₉,-⟩ := @append_next (mkdir makeDirs s₈) _ stateName
    (textOf_mkdir makeDirs s₈) (by rw [length_textOf]; omega)
  have hat₉ : s₉.at'=s₈.at'+stateName.length := by
    rw [← length_textOf,htext₉,List.length_append,length_textOf]
  obtain ⟨s₁₀,hrun₁₀,htext₁₀⟩ := @putAll_textOf s₉ (slotDigits slot) (by omega)
  have hat₁₀ : s₁₀.at'=s₉.at'+(slotDigits slot).length := by
    rw [← length_textOf,htext₁₀,List.length_append,length_textOf]
  obtain ⟨s₁₁,hrun₁₁,htext₁₁,-⟩ := @terminate_textOf s₁₀ (by omega)
  obtain ⟨t,hrun,htext,hzero⟩ := @append_next s₁₁ _ savExtension htext₁₁
    (by rw [length_textOf]; omega)
  refine ⟨t,m,?_,?_,hzero,hlegal⟩
  · unfold bridgeStateBuildPath
    simp only [if_neg h,hrun₁,hrun₂,hrun₃,hrun₄,hrun₅,hrun₆,hrun₇,hrun₈,hrun₉,hrun₁₀,hrun₁₁,
      hrun,Option.bind_eq_bind,Option.bind_some,lt_self_iff_false,if_false]
  · rw [htext,htext₁₀,htext₉,htext₈,htext₇,htext₆]
    unfold stateFile statesDirectory
    simp only [List.append_assoc]

/-- For every path of a game the name of a saved state is refused, or it is in the buffer,
terminated there, and its component is legal and made of whole units. -/
theorem state_path_legal (emulator : Emulator) (isOpen : Bool) (path : CString) (slot : UInt8)
    (makeDirs : Bool) (s : StatePath) :
    ∃ ret t,bridgeStateBuildPath emulator isOpen path slot makeDirs s=some (ret,t) ∧
      (ret<0 ∨ ∃ component,HoldsPath emulator path.1 slot component t) := by
  by_cases h : isOpen=false ∨ slot=0 ∨ chislinkStateSlotCount< slot
  · refine ⟨-1,s,?_,Or.inl (by decide)⟩
    unfold bridgeStateBuildPath
    rw [if_pos h]
    rfl
  obtain ⟨t,m,hrun,htext,hzero,hlegal⟩ := bridgeStateBuildPath_run emulator path makeDirs s h
  have hslot : slot≤ chislinkStateSlotCount := by
    by_contra hlarge
    exact h (Or.inr (Or.inr (UInt8.not_le.mp hlarge)))
  obtain ⟨hstates,hfile⟩ := nonzero_around emulator hslot
  have hbytes : ∀ b∈ textOf t,b≠0 := by
    intro b hb
    rw [htext] at hb
    rcases List.mem_append.mp hb with hfront | hend
    · rcases List.mem_append.mp hfront with hbase | hcomponent
      · exact hstates b hbase
      · rintro rfl
        exact absurd (hlegal.legal 0 hcomponent).1 (by decide)
    · exact hfile b hend
  refine ⟨0,t,hrun,Or.inr ⟨_,htext,?_,hzero,fun i hi => ?_,hlegal,
    wholeUnits_nameOf path.1 m⟩⟩
  · have hlength := congrArg List.length htext
    have hbase := length_statesDirectory emulator
    have hrest := length_stateFile slot
    have hcomponent := hlegal.length_le
    have hsize : statePathSize=320 := rfl
    rw [length_textOf,List.length_append,List.length_append] at hlength
    omega
  · exact hbytes _ (List.mem_map.mpr ⟨i,List.mem_range.mpr hi,rfl⟩)

end Path

end ChisLink.StatePathNames
