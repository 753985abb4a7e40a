import TextMate.Proofs.Lexemes
import TextMate.Proofs.OuterGroup
import TextMate.Proofs.References

/-!
# References to numbered groups and the outer group

The outer group is kept if the text has a backslash before a digit, since every number would then belong
to another group. A regex engine also reads `\k<2>` or `\g<2>` as references by number, and these are not
looked for. So a text with nothing but such references can lose its outer group, and they are all
redirected: each stands where it stood, with the number that it had (`elide_references`).
-/

set_option autoImplicit false

namespace TextMate

namespace Regex

/-- A reference to the group `n` with the number in brackets. -/
inductive BracketedReference (n : Nat) : List Char → Prop where
  | angles {letter} : letter ∈ ['k', 'g'] →
      BracketedReference n ('\\' :: letter :: '<' :: (n.repr.toList ++ ['>']))
  | quotes {letter} : letter ∈ ['k', 'g'] →
      BracketedReference n ('\\' :: letter :: '\x27' :: (n.repr.toList ++ ['\x27']))

/-- A reference to a group by its number, in any form. -/
inductive NumberedReference : List Char → Prop where
  /-- The number goes on with the digits behind the first one. -/
  | bare {digit} : '1' ≤ digit → digit ≤ '9' → NumberedReference ['\\', digit]
  | bracketed {n ref} : 0 < n → BracketedReference n ref → NumberedReference ref

/-- Somewhere outside its sets the text refers to a group by its number. -/
def RefersByNumber (cs : List Char) : Prop :=
  ∃ before ref behind, cs = before ++ (ref ++ behind) ∧ Lexed .literal before ∧ NumberedReference ref

section Found

variable {c : Char} {cs rest : List Char}

theorem hasBackreferenceIn_char (h : c ≠ '\\') (found : hasBackreferenceIn rest = true) :
    hasBackreferenceIn (c :: rest) = true := by
  rwa [hasBackreferenceIn_cons h]

theorem hasBackreferenceIn_escape (c : Char) (found : hasBackreferenceIn rest = true) :
    hasBackreferenceIn ('\\' :: c :: rest) = true := by
  rw [hasBackreferenceIn, found, Bool.or_true]

/-- A set takes escapes in pairs, like the search for references. -/
theorem OpenSet.found {stage : SetStage} {s : List Char} (h : OpenSet stage s)
    (found : hasBackreferenceIn rest = true) : hasBackreferenceIn (s ++ rest) = true := by
  induction h generalizing rest with
  | start => exact hasBackreferenceIn_char (by decide) found
  | negated => exact hasBackreferenceIn_char (by decide) (hasBackreferenceIn_char (by decide) found)
  | literal _ _ ih =>
    rw [List.append_assoc]
    exact ih (hasBackreferenceIn_char (by decide) found)
  | char _ plain _ ih =>
    rw [List.append_assoc]
    refine ih (hasBackreferenceIn_char ?_ found)
    rintro rfl
    exact plain List.mem_cons_self
  | escape c _ ih =>
    rw [List.append_assoc]
    exact ih (hasBackreferenceIn_escape c found)
  | set _ _ ihs iht =>
    rw [List.append_assoc, List.append_assoc]
    exact ihs (iht (hasBackreferenceIn_char (by decide) found))

/-- A reference is found behind everything that neither escapes it nor has it in a set. -/
theorem Lexed.found (h : Lexed .literal cs) (found : hasBackreferenceIn rest = true) :
    hasBackreferenceIn (cs ++ rest) = true := by
  induction h generalizing rest with
  | nil => exact found
  | char _ plain _ ih =>
    rw [List.append_assoc]
    refine ih (hasBackreferenceIn_char ?_ found)
    rintro rfl
    exact plain List.mem_cons_self
  | escape c _ ih =>
    rw [List.append_assoc]
    exact ih (hasBackreferenceIn_escape c found)
  | set _ whole ih =>
    obtain ⟨s, opened, rfl⟩ := whole
    rw [List.append_assoc, List.append_assoc]
    exact ih (opened.found (hasBackreferenceIn_char (by decide) found))
  | interval _ intervals _ _ => cases intervals

end Found

/-- Without a parenthesis at the start, the rest is read as it was. -/
theorem Lexed.of_cons {braces : Braces} {c : Char} {cs : List Char} (h : Lexed braces (c :: cs))
    (plain : c ∉ ['\\', '[', '{']) : Lexed braces cs := by
  generalize whole : c :: cs = all at h
  induction h generalizing cs with
  | nil => cases whole
  | @char front d lexed opens brace ih =>
    cases front with
    | nil =>
      cases whole
      exact .nil
    | cons e front =>
      obtain ⟨rfl, rfl⟩ := List.cons.inj whole
      exact (ih rfl).char opens brace
  | @escape front d lexed ih =>
    cases front with
    | nil =>
      cases whole
      exact absurd List.mem_cons_self plain
    | cons e front =>
      obtain ⟨rfl, rfl⟩ := List.cons.inj whole
      exact (ih rfl).escape d
  | @set front s lexed set ih =>
    cases front with
    | nil =>
      obtain ⟨rest, rfl⟩ := set.startsWith
      cases whole
      exact absurd (by simp) plain
    | cons e front =>
      obtain ⟨rfl, rfl⟩ := List.cons.inj whole
      exact (ih rfl).set set
  | @interval front body lexed intervals unclosed ih =>
    cases front with
    | nil =>
      cases whole
      exact absurd (by simp) plain
    | cons e front =>
      obtain ⟨rfl, rfl⟩ := List.cons.inj whole
      exact (ih rfl).interval intervals unclosed

theorem BracketedReference.begins {n : Nat} {ref : List Char} (h : BracketedReference n ref) :
    ∃ rest, ref = '\\' :: rest := by
  cases h with
  | angles _ | quotes _ => exact ⟨_, rfl⟩

theorem BracketedReference.ends {n : Nat} {ref : List Char} (h : BracketedReference n ref) :
    ∃ front c, ref = front ++ [c] ∧ c ≠ ')' := by
  cases h with
  | angles _ => exact ⟨'\\' :: _ :: '<' :: n.repr.toList, '>', rfl, by decide⟩
  | quotes _ => exact ⟨'\\' :: _ :: '\x27' :: n.repr.toList, '\x27', rfl, by decide⟩

/-- What begins and ends with something else stands between the two parentheses. -/
theorem exists_inside {us before ref behind : List Char}
    (whole : '(' :: (us ++ [')']) = before ++ (ref ++ behind)) (begins : ∃ rest, ref = '\\' :: rest)
    (ends : ∃ front c, ref = front ++ [c] ∧ c ≠ ')') :
    ∃ before' behind', before = '(' :: before' ∧ behind = behind' ++ [')'] ∧
      us = before' ++ (ref ++ behind') := by
  obtain ⟨rest, begins⟩ := begins
  obtain ⟨front, last, ends, other⟩ := ends
  cases before with
  | nil =>
    rw [begins] at whole
    cases whole
  | cons c before' =>
    obtain ⟨rfl, body⟩ := List.cons.inj whole
    rcases List.eq_nil_or_concat behind with rfl | ⟨behind', e, rfl⟩
    · have body' : us ++ [')'] = (before' ++ front) ++ [last] := by
        simpa [ends] using body
      cases (List.append_inj' body' rfl).2
      exact absurd rfl other
    · have body' : us ++ [')'] = (before' ++ (ref ++ behind')) ++ [e] := by
        simpa using body
      obtain ⟨inside, close⟩ := List.append_inj' body' rfl
      cases close
      exact ⟨before', behind', rfl, List.concat_eq_append, inside⟩

end Regex

namespace GroupStyle

variable {α : Type} {allowed : Bool} {text : String} {styles : List (Nat × GroupStyle α)}

theorem elide_of_not_isSpare (h : ¬ IsSpare allowed text styles) :
    elide allowed text styles = (text, styles) := by
  rw [elide, if_neg (mt isSpare_iff.2 h)]

/-- A reference with the number `n` in the text without the group around it. It is one character further
to the left, as everything is, but the group that had its number has another one now. -/
structure Redirected (n : Nat) (before ref behind : List Char) (text inner : String) : Prop where
  parts : ∃ before' behind', before = '(' :: before' ∧ behind = behind' ++ [')'] ∧
    inner.toList = before' ++ (ref ++ behind') ∧ Regex.Lexed .literal before'
  next : Regex.groupStart? text (n + 1) = (Regex.groupStart? inner n).map (· + 1)

theorem redirected_of_isSpare {n : Nat} {before ref behind : List Char} (pos : 0 < n)
    (chars : text.toList = before ++ (ref ++ behind)) (outside : Regex.Lexed .literal before)
    (reference : Regex.BracketedReference n ref) (spare : IsSpare allowed text styles) :
    Redirected n before ref behind text (elide allowed text styles).1 := by
  have unwrapped := unwrapped_of_isSpare spare
  refine ⟨?_, unwrapped.starts n pos⟩
  have whole : '(' :: ((elide allowed text styles).1.toList ++ [')']) = before ++ (ref ++ behind) := by
    rw [← chars]
    conv_rhs => rw [unwrapped.parts]
    simp
  obtain ⟨before', behind', rfl, rfl, inside⟩ := Regex.exists_inside whole reference.begins reference.ends
  exact ⟨before', behind', rfl, rfl, inside, outside.of_cons (by decide)⟩

/-- A text that refers to a group by a backslash and a digit stays as it is. If the number is in brackets,
the text stays or the reference is redirected, and which of the two happens does not depend on the
reference. -/
theorem elide_references (allowed : Bool) (text : String) (styles : List (Nat × GroupStyle α))
    (before ref behind : List Char) (chars : text.toList = before ++ (ref ++ behind))
    (outside : Regex.Lexed .literal before) :
    ((∃ digit, ref = ['\\', digit] ∧ '1' ≤ digit ∧ digit ≤ '9') →
        elide allowed text styles = (text, styles)) ∧
      ∀ n, 0 < n → Regex.BracketedReference n ref →
        (¬ IsSpare allowed text styles ∧ elide allowed text styles = (text, styles)) ∨
          (IsSpare allowed text styles ∧
            Redirected n before ref behind text (elide allowed text styles).1) := by
  constructor
  · rintro ⟨digit, rfl, low, high⟩
    have here : Regex.hasBackreferenceIn ('\\' :: digit :: behind) = true := by
      simp [Regex.hasBackreferenceIn, low, high]
    have found : Regex.hasBackreference text = true := by
      rw [Regex.hasBackreference, chars]
      exact outside.found here
    refine elide_of_not_isSpare fun spare => ?_
    rw [spare.unreferenced] at found
    cases found
  · intro n pos reference
    by_cases spare : IsSpare allowed text styles
    · exact .inr ⟨spare, redirected_of_isSpare pos chars outside reference spare⟩
    · exact .inl ⟨spare, elide_of_not_isSpare spare⟩

/-- The outer group is highlighted and nothing else is. -/
def outerHighlighted : List (Nat × GroupStyle Mode) :=
  [(1, ⟨[⟨"keyword"⟩], []⟩)]

/-- The outer group stays for `\2`. It is left out in spite of `\k<2>`, which then has no group to refer
to. -/
theorem elide_references_secondGroup :
    elide true "((a)\\2)" outerHighlighted = ("((a)\\2)", outerHighlighted) ∧
      Redirected 2 ['(', '(', 'a', ')'] ['\\', 'k', '<', '2', '>'] [')'] "((a)\\k<2>)"
        (elide true "((a)\\k<2>)" outerHighlighted).1 ∧
      Regex.groupStart? (elide true "((a)\\k<2>)" outerHighlighted).1 2 = none := by
  have bare := elide_references true "((a)\\2)" outerHighlighted ['(', '(', 'a', ')'] ['\\', '2'] [')']
    rfl (by decide)
  have bracketed := elide_references true "((a)\\k<2>)" outerHighlighted ['(', '(', 'a', ')']
    ['\\', 'k', '<', '2', '>'] [')'] rfl (by decide)
  refine ⟨bare.1 ⟨'2', rfl, by decide⟩, ?_, by decide⟩
  rcases bracketed.2 2 (by decide) (.angles (by decide)) with ⟨needed, -⟩ | ⟨-, redirected⟩
  · exact absurd (isSpare_iff.2 (by decide)) needed
  · exact redirected

/-- The text refers to its second group and is changed nevertheless. -/
theorem elide_bracketedReference :
    Regex.RefersByNumber "((a)\\k<2>)".toList ∧
      (elide true "((a)\\k<2>)" outerHighlighted).1 = "(a)\\k<2>" := by
  refine ⟨⟨['(', '(', 'a', ')'], ['\\', 'k', '<', '2', '>'], [')'], rfl, by decide, ?_⟩, by decide⟩
  exact .bracketed (n := 2) (by decide) (.angles (by decide))

end GroupStyle

end TextMate
