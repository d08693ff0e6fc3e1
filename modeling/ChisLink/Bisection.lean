import Mathlib.Order.Basic
import Mathlib.Tactic.Linarith

/-!
# Bisection

A sorted sequence is searched by halving an interval of indices. The search is told at
each index whether what is looked for lies before it, at it or behind it. What it
finds is always right. It finds what there is if these answers are in order, the ones
that point behind first.
-/

namespace ChisLink.Bisection

/-- The search in the indices from `left` up to but not at `right`. -/
def bisect (test : ℕ → Ordering) (left right : ℕ) : Option ℕ :=
  if left< right then
    let mid := left+(right-left)/2
    match test mid with
    | .eq => some mid
    | .lt => bisect test (mid+1) right
    | .gt => bisect test left mid
  else none
termination_by right-left

/-- The answers are in order: those that point behind the index come first, those that
point before it come last. -/
structure Ascending (test : ℕ → Ordering) (count : ℕ) : Prop where
  /-- What is too small stays too small further left. -/
  lt_of_lt : ∀ {i j},i≤j → j<count → test j=.lt → test i=.lt
  /-- What is too large stays too large further right. -/
  gt_of_gt : ∀ {i j},i≤j → j<count → test i=.gt → test j=.gt

section Search

variable {test : ℕ → Ordering} {left right count index : ℕ}

/-- What is found is there, in any order of the answers. -/
theorem bisect_sound (h : bisect test left right=some index) :
    left≤ index ∧ index< right ∧ test index=.eq := by
  fun_induction bisect test left right with
  | case1 left right hlt mid heq =>
    have hmid : mid=left+(right-left)/2 := rfl
    have hindex : mid=index := Option.some.inj h
    rw [hindex] at heq
    exact ⟨by omega,by omega,heq⟩
  | case2 left right hlt mid hless ih =>
    have hmid : mid=left+(right-left)/2 := rfl
    obtain ⟨hleft,hright,heq⟩ := ih h
    exact ⟨by omega,hright,heq⟩
  | case3 left right hlt mid hgreater ih =>
    have hmid : mid=left+(right-left)/2 := rfl
    obtain ⟨hleft,hright,heq⟩ := ih h
    exact ⟨hleft,by omega,heq⟩
  | case4 left right hle => cases h

/-- What is there is found, if the answers are in order. -/
theorem bisect_complete (horder : Ascending test count) (hright : right≤ count)
    (hleft : left≤ index) (hindex : index< right) (heq : test index=.eq) :
    ∃ found,bisect test left right=some found := by
  fun_induction bisect test left right with
  | case1 left right hlt mid hfound => exact ⟨mid,rfl⟩
  | case2 left right hlt mid hless ih =>
    have hmid : mid=left+(right-left)/2 := rfl
    have hbehind : mid< index := by
      by_contra hle
      have hsmall := horder.lt_of_lt (Nat.not_lt.mp hle) (by omega) hless
      rw [heq] at hsmall
      cases hsmall
    exact ih hright hbehind hindex
  | case3 left right hlt mid hgreater ih =>
    have hmid : mid=left+(right-left)/2 := rfl
    have hbefore : index< mid := by
      by_contra hle
      have hlarge := horder.gt_of_gt (Nat.not_lt.mp hle) (by omega) hgreater
      rw [heq] at hlarge
      cases hlarge
    exact ih (by omega) hleft hbefore
  | case4 left right hle => omega

/-- The search over all indices finds something exactly if there is something. -/
theorem bisect_isSome_iff (horder : Ascending test count) :
    (∃ found,bisect test 0 count=some found) ↔ ∃ index,index<count ∧ test index=.eq := by
  constructor
  · rintro ⟨found,hfound⟩
    obtain ⟨-,hlt,heq⟩ := bisect_sound hfound
    exact ⟨found,hlt,heq⟩
  · rintro ⟨index,hlt,heq⟩
    exact bisect_complete horder le_rfl (Nat.zero_le index) hlt heq

end Search

end ChisLink.Bisection
