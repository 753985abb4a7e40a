import TextMate.Proofs.SelfContained

/-!
# The marks of self-contained regexes

The marks of a row of self-contained texts are the marks of its members, a group has one mark, and
so has a quantifier. From this follows the precedence of every text that is put together from
self-contained ones.
-/

set_option autoImplicit false

namespace TextMate.Regex

open Precedence (alternation sequence quantified atom)

/-- The precedence of a text given by its characters. -/
def precedenceOf (cs : List Char) : Precedence :=
  precedenceOfMarks (marks .top cs)

/-- Characters inside a group are no marks. -/
theorem marks_within {k : Cursor} {cs : List Char} (h : k.AllowsAll cs) :
    marks (k.within [.group]) cs = [] := by
  induction cs generalizing k with
  | nil => rfl
  | cons c rest ih =>
    have inner : k.within [.group] ≠ .top := by simp [Cursor.within, Cursor.top]
    rw [marks, if_neg inner, Cursor.step_within h.1 (by decide)]
    exact ih h.2

theorem marks_groupHead (nest : List Bracket) (cs : List Char) :
    marks ⟨.group :: nest, .groupHead⟩ cs = marks ⟨.group :: nest, .nothing⟩ cs := by
  cases cs <;> rfl

/-- The mark of a group is its parenthesis. -/
theorem marks_wrapped {cs : List Char} (h : SelfContained cs) {o : List Char}
    (ho : o ∈ groupOpenings) : marks .top (o ++ (cs ++ [')'])) = ['('] := by
  have opening : ∀ o ∈ groupOpenings, marks .top o = ['('] := by decide
  have body : marks Cursor.inside (cs ++ [')']) = [] := by
    rw [marks_append, h.after_inside, Cursor.inside, marks_within h.allowed]
    rfl
  rw [marks_append, opening o ho]
  rcases Cursor.after_groupOpening o ho with ha | ha
  · rw [ha, body, List.append_nil]
  · rw [ha, marks_groupHead]
    exact congrArg (['('] ++ ·) body

theorem marks_interval {nest : List Bracket} {body : List Char}
    (h : ∀ c ∈ body, isIntervalChar c = true) : marks ⟨nest, .interval⟩ (body ++ ['}']) = [] := by
  have below : Cursor.mk nest .interval ≠ .top := by simp [Cursor.top]
  induction body with
  | nil => rw [List.nil_append, marks, if_neg below, marks]
  | cons c rest ih =>
    rw [List.cons_append, marks, if_neg below, Cursor.step_interval (h c (by simp))]
    exact ih fun d hd => h d (by simp [hd])

/-- The mark of a quantifier is its first character. -/
theorem marks_quantifier {q : List Char} (h : IsQuantifier q) :
    ∃ c, marks .top q = [c] ∧ markPrecedence c = quantified := by
  rcases h with h | ⟨body, rfl, hbody⟩
  · simp only [List.mem_cons, List.not_mem_nil, or_false] at h
    rcases h with rfl | rfl | rfl <;> exact ⟨_, rfl, rfl⟩
  · exact ⟨'{', by rw [marks, if_pos rfl]; exact congrArg _ (marks_interval hbody), rfl⟩

theorem marks_ne_nil {cs : List Char} (h : cs ≠ []) : marks .top cs ≠ [] := by
  cases cs with
  | nil => exact absurd rfl h
  | cons c rest => simp [marks]

/-- No mark of a self-contained text is a `)`. -/
theorem close_not_mem_marks {k : Cursor} {cs : List Char} (h : k.AllowsAll cs) :
    ')' ∉ marks k cs := by
  induction cs generalizing k with
  | nil => simp [marks]
  | cons c rest ih =>
    rw [marks]
    split
    · next top =>
      subst top
      have first : c ≠ ')' := h.1 rfl
      simp only [List.mem_cons, not_or]
      exact ⟨first.symm, ih h.2⟩
    · exact ih h.2

/-- Marks that are not the first ones. -/
theorem precedenceOfMarks_append {ms ns : List Char} (h : ms ≠ []) :
    precedenceOfMarks (ms ++ ns) = min (precedenceOfMarks ms) (loosest (ns.map markPrecedence)) := by
  cases ms with
  | nil => exact absurd rfl h
  | cons m ms =>
    rw [List.cons_append, precedenceOfMarks, precedenceOfMarks, List.map_append, loosest_append,
      Precedence.min_assoc]

/-- The first mark counts as one atom more if it is no quantifier. -/
theorem markPrecedence_of_start {c : Char} (h : startsQuantifier c = false) (hc : c ≠ ')') :
    markPrecedence c = min sequence (firstMarkPrecedence c) := by
  simp only [startsQuantifier, List.mem_cons, List.not_mem_nil, or_false, decide_eq_false_iff_not,
    not_or] at h
  obtain ⟨question, star, plus, brace⟩ := h
  unfold markPrecedence firstMarkPrecedence
  by_cases bar : c = '|'
  · rw [if_pos bar, if_pos bar]
    rfl
  · simp only [bar, star, plus, question, brace, hc, or_self, if_false]
    rfl

/-- The marks of a self-contained text behind another one make a sequence of the two. -/
theorem loosest_marks {cs : List Char} (h : SelfContained cs) (hne : cs ≠ []) :
    loosest ((marks .top cs).map markPrecedence) = min sequence (precedenceOf cs) := by
  cases cs with
  | nil => exact absurd rfl hne
  | cons c rest =>
    have close : c ≠ ')' := h.allowed.1 rfl
    rw [precedenceOf, marks, if_pos rfl, List.map_cons, precedenceOfMarks,
      show ∀ p ps, loosest (p :: ps) = min p (loosest ps) from fun _ _ => rfl,
      markPrecedence_of_start (h.start c rfl) close, Precedence.min_assoc]

section Operations

variable {as bs : List Char}

/-- Two texts in a row, neither of them empty. -/
theorem precedenceOf_append (ha : SelfContained as) (hb : SelfContained bs) (hne : as ≠ [])
    (hne' : bs ≠ []) :
    precedenceOf (as ++ bs) = min (precedenceOf as) (min sequence (precedenceOf bs)) := by
  rw [precedenceOf, marks_append, ha.closed, precedenceOfMarks_append (marks_ne_nil hne),
    loosest_marks hb hne']
  rfl

theorem alternation_min (p : Precedence) : min alternation p = alternation := by
  cases p <;> rfl

/-- A bar between two texts, which may be empty. -/
theorem precedenceOf_bar (ha : SelfContained as) (bs : List Char) :
    precedenceOf (as ++ '|' :: bs) = alternation := by
  have bar : marks .top ('|' :: bs) = '|' :: marks .top bs := rfl
  rw [precedenceOf, marks_append, ha.closed, bar]
  cases marks .top as with
  | nil => exact alternation_min _
  | cons m ms =>
    have loose : loosest (List.map markPrecedence ('|' :: marks .top bs)) = alternation :=
      alternation_min _
    rw [precedenceOfMarks_append (by simp), loose, Precedence.min_comm, alternation_min]

/-- A text between parentheses is one atom. -/
theorem precedenceOf_wrapped (h : SelfContained as) {o : List Char} (ho : o ∈ groupOpenings) :
    precedenceOf (o ++ (as ++ [')'])) = atom := by
  rw [precedenceOf, marks_wrapped h ho]
  rfl

/-- A text with a quantifier behind it. -/
theorem precedenceOf_quantified (h : SelfContained as) (hne : as ≠ []) {q : List Char}
    (hq : IsQuantifier q) : precedenceOf (as ++ q) = min (precedenceOf as) quantified := by
  obtain ⟨c, hc, hp⟩ := marks_quantifier hq
  rw [precedenceOf, marks_append, h.closed, hc, precedenceOfMarks_append (marks_ne_nil hne)]
  rw [List.map_cons, List.map_nil, hp]
  rfl

end Operations

end TextMate.Regex
