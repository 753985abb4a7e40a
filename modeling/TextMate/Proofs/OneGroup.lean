import TextMate.Proofs.Braces
import TextMate.Proofs.OuterGroup

/-!
# Texts that are one group

A text is wrapped if its first character opens a numbered group and its last one closes it. This is said
by what is open between two characters: something everywhere inside the text, and nothing behind it
(`closesAtEnd_iff`). The test reads braces as literals and the scan reads them as intervals, so on closed
intervals the scan finds nothing at the top level but the first parenthesis.
-/

set_option autoImplicit false

namespace TextMate.Regex

variable {braces : Braces} {k : Cursor} {cs : List Char} {text : String}

/-- Behind the whole text, and nowhere before, no bracket is open. -/
def ClosesLast (braces : Braces) (k : Cursor) (cs : List Char) : Prop :=
  ∀ before behind, cs = before ++ behind → before ≠ [] →
    ((k.after braces before).nest = [] ↔ behind = [])

/-- The first character decides, or it does not and the rest of the text does. -/
theorem closesLast_cons {c : Char} {rest : List Char} :
    ClosesLast braces k (c :: rest) ↔
      ((k.step braces c).nest = [] ↔ rest = []) ∧ ClosesLast braces (k.step braces c) rest := by
  constructor
  · intro h
    refine ⟨h [c] rest rfl (by simp), ?_⟩
    rintro before behind rfl -
    exact h (c :: before) behind rfl (by simp)
  · rintro ⟨first, later⟩ before behind split nonempty
    cases before with
    | nil => exact absurd rfl nonempty
    | cons d before =>
      obtain ⟨rfl, rfl⟩ := List.cons.inj split
      cases before with
      | nil => exact first
      | cons e before => exact later (e :: before) behind rfl (by simp)

theorem closesAtEnd_iff : closesAtEnd braces k cs = true ↔ cs ≠ [] ∧ ClosesLast braces k cs := by
  induction cs generalizing k with
  | nil => simp [closesAtEnd]
  | cons c rest ih =>
    rw [closesAtEnd, closesLast_cons]
    by_cases closed : (k.step braces c).nest = []
    · rw [if_pos closed, List.isEmpty_iff]
      refine ⟨?_, fun h => h.2.1.1 closed⟩
      rintro rfl
      refine ⟨by simp, by simp [closed], ?_⟩
      rintro before behind split nonempty
      exact absurd (List.append_eq_nil_iff.1 split.symm).1 nonempty
    · rw [if_neg closed, ih]
      simp [closed]

/-- The test in terms of what is open inside the text. -/
theorem isWrapped_iff : isWrapped text = true ↔
    (∃ c rest, text.toList = '(' :: c :: rest ∧ c ≠ '?') ∧ ClosesLast .literal .top text.toList := by
  unfold isWrapped
  split
  · next c rest chars =>
    rw [Bool.and_eq_true, closesAtEnd_iff, chars, closesLast_cons (c := '(')]
    simp [Cursor.step, Cursor.read, Cursor.readOutsideSet, Cursor.top]
  · next other =>
    refine iff_of_false Bool.false_ne_true ?_
    rintro ⟨⟨c, rest, chars, -⟩, -⟩
    exact other c rest chars

/-- Both readings of the braces close the brackets at the same places. -/
theorem PlainBraces.closesLast_iff (h : PlainBraces cs) :
    ClosesLast .literal .top cs ↔ ClosesLast .interval .top cs := by
  refine forall₂_congr fun before behind => imp_congr_right fun split => ?_
  subst split
  rw [h.after.1, Cursor.nest_asLiteral]

/-- As long as a bracket is open nothing is at the top level. -/
theorem marks_eq_nil (h : ClosesLast .interval k cs) (inside : k.nest ≠ []) : marks k cs = [] := by
  induction cs generalizing k with
  | nil => rfl
  | cons c rest ih =>
    have below : k ≠ .top := fun top => inside (congrArg Cursor.nest top)
    obtain ⟨first, later⟩ := closesLast_cons.1 h
    rw [marks, if_neg below]
    by_cases closed : (k.step .interval c).nest = []
    · rw [first.1 closed]
      rfl
    · exact ih later closed

/-- The text has one atom if everything behind its first character is inside a group. -/
theorem precedence_of_closesLast {rest : List Char} (chars : text.toList = '(' :: rest)
    (h : ClosesLast .interval .top text.toList) : precedence text = .atom := by
  rw [chars, closesLast_cons] at h
  have inner : marks (Cursor.top.step .interval '(') rest = [] := marks_eq_nil h.2 (by decide)
  rw [precedence, chars, marks, if_pos rfl, inner]
  rfl

/-- A wrapped text has one group more than the text inside. -/
theorem captureCount_innerText (h : isWrapped text = true) :
    captureCount text = captureCount (GroupStyle.innerText text) + 1 := by
  obtain ⟨us, chars, head⟩ := eq_of_isWrapped h
  rw [captureCount, captureStarts_group chars head, GroupStyle.innerText_eq chars, List.length_cons,
    List.length_map, captureCount]

/-- Where every brace belongs to an interval, a text is wrapped exactly if it begins with a numbered group
and the scan has closed all brackets for the first time at its last character. Then it is an atom for the
scan too, and the scan counts one group more than inside. -/
theorem isWrapped_exact (text : String) (intervals : ClosedBraces text.toList) :
    (isWrapped text = true ↔
      (∃ c rest, text.toList = '(' :: c :: rest ∧ c ≠ '?') ∧
        ∀ before behind, text.toList = before ++ behind → before ≠ [] →
          ((Cursor.top.after .interval before).nest = [] ↔ behind = [])) ∧
      (isWrapped text = true → precedence text = .atom ∧
        captureCount text = captureCount (GroupStyle.innerText text) + 1) := by
  have wrapped : isWrapped text = true ↔ (∃ c rest, text.toList = '(' :: c :: rest ∧ c ≠ '?') ∧
      ClosesLast .interval .top text.toList := by
    rw [isWrapped_iff, intervals.plain.closesLast_iff]
  refine ⟨wrapped, fun h => ⟨?_, captureCount_innerText h⟩⟩
  obtain ⟨⟨c, rest, chars, -⟩, closes⟩ := wrapped.1 h
  exact precedence_of_closesLast chars closes

/-- The parentheses in the set and behind the backslash close nothing, and the interval is passed over. -/
theorem isWrapped_aroundInterval :
    ClosedBraces "(a\x7b2,3\x7d|[)]\\))".toList ∧ isWrapped "(a\x7b2,3\x7d|[)]\\))" = true ∧
      precedence "(a\x7b2,3\x7d|[)]\\))" = .atom ∧ captureCount "(a\x7b2,3\x7d|[)]\\))" = 1 := by
  have intervals : ClosedBraces "(a\x7b2,3\x7d|[)]\\))".toList := by decide +kernel
  have wrapped : isWrapped "(a\x7b2,3\x7d|[)]\\))" = true := by decide
  obtain ⟨atom, groups⟩ := (isWrapped_exact _ intervals).2 wrapped
  exact ⟨intervals, wrapped, atom, groups.trans (by decide)⟩

end TextMate.Regex
