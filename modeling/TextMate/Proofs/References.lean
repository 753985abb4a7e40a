import Mathlib.Algebra.Group.Nat.Even
import TextMate.Regex.Backreference

/-!
# Where a text refers to a group

The scan for references takes escapes in pairs from the left. Seen from one place, a character is not
escaped if the number of backslashes right before it is even. Both say the same: the scan finds a
reference exactly if a backslash that is not escaped stands before a digit from 1 to 9
(`hasBackreferenceIn_iff`). A group around a text adds no reference and hides none.
-/

set_option autoImplicit false

namespace TextMate.Regex

/-- How many backslashes stand at the end of `cs`. -/
def trailingBackslashes (cs : List Char) : Nat :=
  (cs.reverse.takeWhile (· = '\\')).length

/-- What comes after `cs` is not escaped: the backslashes before it escape one another. -/
def LeavesFree (cs : List Char) : Prop :=
  Even (trailingBackslashes cs)

/-- Somewhere a backslash that is not escaped stands before a digit from 1 to 9. -/
def RefersToGroup (cs : List Char) : Prop :=
  ∃ before digit behind, cs = before ++ '\\' :: digit :: behind ∧ LeavesFree before ∧
    '1' ≤ digit ∧ digit ≤ '9'

variable {c d : Char} {cs : List Char}

theorem leavesFree_nil : LeavesFree [] := Even.zero

theorem leavesFree_cons (h : c ≠ '\\') : LeavesFree (c :: cs) ↔ LeavesFree cs := by
  have same : trailingBackslashes (c :: cs) = trailingBackslashes cs := by
    unfold trailingBackslashes
    rw [List.reverse_cons, List.takeWhile_append]
    split
    · next all => simp [h, all]
    · rfl
  rw [LeavesFree, same, LeavesFree]

/-- An escape at the front makes no difference, whatever is escaped. -/
theorem leavesFree_escape (c : Char) : LeavesFree ('\\' :: c :: cs) ↔ LeavesFree cs := by
  have parity : Even (trailingBackslashes ('\\' :: c :: cs)) ↔ Even (trailingBackslashes cs) := by
    unfold trailingBackslashes
    rw [List.reverse_cons, List.reverse_cons, List.append_assoc, List.takeWhile_append]
    split
    · next all =>
      by_cases backslash : c = '\\'
      · have two : Even 2 := ⟨1, rfl⟩
        simp [backslash, all, Nat.even_add, two]
      · simp [backslash, all]
    · rfl
  exact parity

/-- A single backslash escapes what comes after it. -/
theorem not_leavesFree_backslash : ¬ LeavesFree ['\\'] := Nat.not_even_one

theorem refersToGroup_escape :
    RefersToGroup ('\\' :: c :: cs) ↔ ('1' ≤ c ∧ c ≤ '9') ∨ RefersToGroup cs := by
  constructor
  · rintro ⟨before, digit, behind, split, free, range⟩
    cases before with
    | nil =>
      cases split
      exact .inl range
    | cons x before =>
      cases before with
      | nil =>
        cases split
        exact absurd free not_leavesFree_backslash
      | cons y before =>
        cases split
        exact .inr ⟨before, digit, behind, rfl, (leavesFree_escape c).1 free, range⟩
  · rintro (range | ⟨before, digit, behind, rfl, free, range⟩)
    · exact ⟨[], c, cs, rfl, leavesFree_nil, range⟩
    · exact ⟨'\\' :: c :: before, digit, behind, rfl, (leavesFree_escape c).2 free, range⟩

theorem refersToGroup_cons (h : c ≠ '\\') : RefersToGroup (c :: cs) ↔ RefersToGroup cs := by
  constructor
  · rintro ⟨before, digit, behind, split, free, range⟩
    cases before with
    | nil => exact absurd (List.cons.inj split).1 h
    | cons x before =>
      obtain ⟨rfl, rfl⟩ := List.cons.inj split
      exact ⟨before, digit, behind, rfl, (leavesFree_cons h).1 free, range⟩
  · rintro ⟨before, digit, behind, rfl, free, range⟩
    exact ⟨c :: before, digit, behind, rfl, (leavesFree_cons h).2 free, range⟩

theorem not_refersToGroup_of_short (h : cs.length ≤ 1) : ¬ RefersToGroup cs := by
  rintro ⟨before, digit, behind, rfl, -⟩
  rw [List.length_append, List.length_cons, List.length_cons] at h
  omega

theorem hasBackreferenceIn_cons (h : c ≠ '\\') (cs : List Char) :
    hasBackreferenceIn (c :: cs) = hasBackreferenceIn cs := by
  rw [hasBackreferenceIn.eq_2]
  intro d rest eq
  exact absurd eq h

/-- A parenthesis is no digit, so it makes no back-reference with what stands before it. -/
theorem hasBackreferenceIn_close (cs : List Char) :
    hasBackreferenceIn (cs ++ [')']) = hasBackreferenceIn cs := by
  fun_induction hasBackreferenceIn cs with
  | case1 c rest ih => rw [List.cons_append, List.cons_append, hasBackreferenceIn, ih]
  | case2 c rest other ih =>
    by_cases escape : c = '\\'
    · cases rest with
      | nil => subst escape; rfl
      | cons d rest => exact absurd rfl (other d rest escape)
    · rw [List.cons_append, hasBackreferenceIn_cons escape, ih]
  | case3 => rfl

/-- A numbered group around a text adds no back-reference. -/
theorem hasBackreferenceIn_group (cs : List Char) :
    hasBackreferenceIn ('(' :: (cs ++ [')'])) = hasBackreferenceIn cs := by
  rw [hasBackreferenceIn_cons (by decide), hasBackreferenceIn_close]

/-- The scan finds a reference exactly if there is one. -/
theorem hasBackreferenceIn_iff : hasBackreferenceIn cs = true ↔ RefersToGroup cs := by
  fun_induction hasBackreferenceIn cs with
  | case1 c rest ih => rw [Bool.or_eq_true, decide_eq_true_eq, ih, refersToGroup_escape]
  | case2 c rest other ih =>
    by_cases escape : c = '\\'
    · cases rest with
      | nil => exact iff_of_false nofun (not_refersToGroup_of_short (Nat.le_refl 1))
      | cons d rest => exact absurd rfl (other d rest escape)
    · rw [ih, refersToGroup_cons escape]
  | case3 => exact iff_of_false nofun (not_refersToGroup_of_short (Nat.zero_le 1))

theorem hasBackreference_iff {text : String} :
    hasBackreference text = true ↔ RefersToGroup text.toList :=
  hasBackreferenceIn_iff

end TextMate.Regex
