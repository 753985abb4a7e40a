import TextMate.Proofs.Marks
import TextMate.Proofs.Openings
import TextMate.Proofs.References
import TextMate.Proofs.Syntax

/-!
# Literals have no structure

A literal is read in pairs of a backslash and the character behind it, and in single characters. The second
characters of the pairs and the single ones make up the text again, and nothing that is left single means
anything to a scan or to the grammar. So no scan finds a group, a bar, a quantifier or a reference in a
literal, and the grammar reads one atom for each character, whatever the literal stands behind
(`inert_escape`).
-/

set_option autoImplicit false

namespace TextMate.Regex

open Precedence (sequence atom)

variable {c : Char} {cs : List Char}

/-- What is read in one go outside sets and intervals. -/
inductive Glyph where
  | bare (c : Char)
  /-- A backslash and the character behind it. -/
  | pair (c : Char)
  deriving DecidableEq, Repr

/-- The character without the backslash. -/
def Glyph.char : Glyph → Char
  | bare c | pair c => c

/-- A text in pairs from the left and in single characters. A backslash at the end is single. -/
def glyphs : List Char → List Glyph
  | '\\' :: c :: rest => .pair c :: glyphs rest
  | c :: rest => .bare c :: glyphs rest
  | [] => []

theorem glyphs_cons (h : c ≠ '\\') (rest : List Char) : glyphs (c :: rest) = .bare c :: glyphs rest := by
  rw [glyphs.eq_2]
  intro d rest eq
  exact absurd eq h

/-- All that a scan reacts to is escaped. -/
theorem isOperator_of_mem_scanned : ∀ c ∈ scanned, isOperator c = true := by
  simp [scanned, isOperator]

theorem not_digit_of_isOperator (h : isOperator c = true) : ¬ ('1' ≤ c ∧ c ≤ '9') := by
  simp only [isOperator, decide_eq_true_eq, List.mem_cons, List.not_mem_nil, or_false] at h
  revert c
  simp only [forall_eq_or_imp, forall_eq]
  decide

theorem escapeChar_ne_nil (c : Char) : escapeChar c ≠ [] := by
  obtain ⟨-, chars⟩ | ⟨-, chars⟩ := escapeChar_cases c <;> simp [chars]

/-- A literal is read in pairs just where it was escaped. -/
theorem glyphs_escapeChars (cs : List Char) :
    glyphs (escapeChars cs) = cs.map fun c => if isOperator c then .pair c else .bare c := by
  induction cs with
  | nil => rfl
  | cons c cs ih =>
    rw [escapeChars_cons, List.map_cons, ← ih]
    obtain ⟨op, chars⟩ | ⟨plain, chars⟩ := escapeChar_cases c
    · rw [chars, if_pos op]
      rfl
    · rw [chars, if_neg (by simp [plain])]
      exact glyphs_cons (ne_of_not_isOperator plain (by decide)) _

example : glyphs (escape "\\1)").toList = [.pair '\\', .bare '1', .pair ')'] := by
  decide

theorem map_char_glyphs (cs : List Char) : (glyphs (escapeChars cs)).map Glyph.char = cs := by
  have char : Glyph.char ∘ (fun c => if isOperator c then .pair c else .bare c) = id := by
    funext c
    rw [Function.comp_apply]
    split <;> rfl
  rw [glyphs_escapeChars, List.map_map, char, List.map_id]

theorem not_isOperator_of_bare (h : .bare c ∈ glyphs (escapeChars cs)) : isOperator c = false := by
  rw [glyphs_escapeChars, List.mem_map] at h
  obtain ⟨d, -, read⟩ := h
  split at read
  · cases read
  · next plain =>
    cases read
    exact Bool.eq_false_iff.2 plain

theorem precedenceOf_escapeChar (c : Char) : precedenceOf (escapeChar c) = atom := by
  obtain ⟨-, chars⟩ | ⟨plain, chars⟩ := escapeChar_cases c
  · rw [chars]
    rfl
  · have bar : c ≠ '|' := ne_of_not_isOperator plain (by decide)
    have marked : marks .top [c] = [c] := rfl
    rw [chars, precedenceOf, marked, precedenceOfMarks, firstMarkPrecedence, if_neg bar]
    rfl

theorem precedenceOf_escapeChars (cs : List Char) :
    precedenceOf (escapeChars cs) = if cs.length ≤ 1 then atom else sequence := by
  induction cs with
  | nil => rfl
  | cons c cs ih =>
    rw [escapeChars_cons]
    cases cs with
    | nil => exact (congrArg precedenceOf (List.append_nil _)).trans (precedenceOf_escapeChar c)
    | cons d cs =>
      have nonempty : escapeChars (d :: cs) ≠ [] := by simp [escapeChars_cons, escapeChar_ne_nil]
      have long : ¬ (c :: d :: cs).length ≤ 1 := by simp
      rw [precedenceOf_append (.escapeChar c) (.escapeChars _) (escapeChar_ne_nil c) nonempty,
        precedenceOf_escapeChar, ih, if_neg long]
      split <;> rfl

theorem captureCountOf_escapeChar (c : Char) : captureCountOf (escapeChar c) = 0 := by
  obtain ⟨-, chars⟩ | ⟨plain, chars⟩ := escapeChar_cases c
  · rw [chars]
    rfl
  · have closed := (SelfContained.escapeChar c).closed
    rw [chars] at closed ⊢
    have top : Cursor.top.step .interval c = .top := closed
    rw [captureCountOf, captureStartsFrom, top]
    rfl

theorem captureCountOf_escapeChars (cs : List Char) : captureCountOf (escapeChars cs) = 0 := by
  induction cs with
  | nil => rfl
  | cons c cs ih =>
    rw [escapeChars_cons, captureCountOf_append (.escapeChar c), captureCountOf_escapeChar, ih]

/-- What is escaped is no digit, so no pair refers to a group. -/
theorem hasBackreferenceIn_escapeChars (cs : List Char) : hasBackreferenceIn (escapeChars cs) = false := by
  induction cs with
  | nil => rfl
  | cons c cs ih =>
    rw [escapeChars_cons]
    obtain ⟨op, chars⟩ | ⟨plain, chars⟩ := escapeChar_cases c
    · have digit := decide_eq_false (not_digit_of_isOperator op)
      rw [chars, List.cons_append, List.cons_append, hasBackreferenceIn, digit, Bool.false_or]
      exact ih
    · have backslash : c ≠ '\\' := ne_of_not_isOperator plain (by decide)
      rw [chars, List.cons_append, hasBackreferenceIn_cons backslash]
      exact ih

theorem isWrapped_eq_false {text : String} (h : text.toList.head? ≠ some '(') : isWrapped text = false := by
  unfold isWrapped
  split
  · next _ _ chars => simp [chars] at h
  · rfl

/-- No literal begins with a parenthesis: it would be escaped. -/
theorem head?_escapeChars_ne (cs : List Char) : (escapeChars cs).head? ≠ some '(' := by
  cases cs with
  | nil => simp [escapeChars]
  | cons c cs =>
    obtain ⟨-, chars⟩ | ⟨plain, chars⟩ := escapeChar_cases c
    · simp [escapeChars_cons, chars]
    · have openGroup : c ≠ '(' := ne_of_not_isOperator plain (by decide)
      simp [escapeChars_cons, chars, openGroup]

/-- One atom for each character of `cs` behind the tree `t`. -/
def Tree.literal (t : Tree) (cs : List Char) : Tree :=
  cs.foldl (fun t c => if isOperator c then t.escape c else t.char c) t

/-- One character of a literal is read as one atom, whatever groups are open. -/
theorem run_escapeChar (outer : List OpenGroup) (t : Tree) (c : Char) :
    Reader.run ⟨outer, t, .nothing⟩ (escapeChar c) = some ⟨outer, t.literal [c], .nothing⟩ := by
  obtain ⟨op, chars⟩ | ⟨plain, chars⟩ := escapeChar_cases c
  · have pair : t.literal [c] = t.escape c := if_pos op
    rw [chars, pair]
    rfl
  · have other (d : Char) (hd : isOperator d = true) : c ≠ d := ne_of_not_isOperator plain hd
    have bare : t.literal [c] = t.char c := if_neg (by simp [plain])
    have quantifier : startsQuantifier c = false := by
      simp [startsQuantifier, other '?' (by decide), other '*' (by decide), other '+' (by decide),
        other '{' (by decide)]
    rw [chars, bare, Reader.run, Reader.step, Reader.read, if_neg (other '\\' (by decide)),
      if_neg (other '(' (by decide)), if_neg (other '[' (by decide)), if_neg (other ')' (by decide)),
      if_neg (other '{' (by decide)), if_neg (other '|' (by decide)), quantifier]
    rfl

theorem run_escapeChars (outer : List OpenGroup) (t : Tree) (cs : List Char) :
    Reader.run ⟨outer, t, .nothing⟩ (escapeChars cs) = some ⟨outer, t.literal cs, .nothing⟩ := by
  induction cs generalizing t with
  | nil => rfl
  | cons c cs ih =>
    rw [escapeChars_cons, Reader.run_append (run_escapeChar outer t c), ih]
    rfl

/-- The literal of `s` says `s` and nothing else. -/
structure Inert (s : String) : Prop where
  /-- Without the backslashes of its pairs it is the text. -/
  unescaped : (glyphs (escape s).toList).map Glyph.char = s.toList
  /-- What is in no pair means nothing to a scan, and it is no anchor and no dot. -/
  bare : ∀ c, .bare c ∈ glyphs (escape s).toList → c ∉ scanned ∧ c ∉ ['^', '$', '.']
  captureCount : captureCount (escape s) = 0
  precedence : precedence (escape s) = if s.length ≤ 1 then atom else sequence
  isWrapped : isWrapped (escape s) = false
  hasBackreference : hasBackreference (escape s) = false
  append : ∀ t, escape (s ++ t) = escape s ++ escape t
  /-- Behind any text that leaves nothing unfinished the grammar reads the characters as atoms. -/
  atoms : ∀ outer t, Reader.run ⟨outer, t, .nothing⟩ (escape s).toList =
    some ⟨outer, t.literal s.toList, .nothing⟩

/-- Every text can be made a literal. -/
theorem inert_escape (s : String) : Inert s := by
  have chars : (escape s).toList = escapeChars s.toList := String.toList_ofList
  refine ⟨?_, ?_, ?_, ?_, ?_, ?_, escape_append s, fun outer t => ?_⟩
  · rw [chars]
    exact map_char_glyphs s.toList
  · intro c single
    rw [chars] at single
    have plain : isOperator c = false := not_isOperator_of_bare single
    have escaped : ∀ d ∈ ['^', '$', '.'], isOperator d = true := by simp [isOperator]
    exact ⟨fun mem => ne_of_not_isOperator plain (isOperator_of_mem_scanned c mem) rfl,
      fun mem => ne_of_not_isOperator plain (escaped c mem) rfl⟩
  · rw [captureCount, captureStarts, chars]
    exact captureCountOf_escapeChars s.toList
  · rw [precedence, chars, ← String.length_toList]
    exact precedenceOf_escapeChars s.toList
  · exact isWrapped_eq_false (by rw [chars]; exact head?_escapeChars_ne s.toList)
  · rw [hasBackreference, chars]
    exact hasBackreferenceIn_escapeChars s.toList
  · rw [chars]
    exact run_escapeChars outer t s.toList

end TextMate.Regex
