import TextMate.Proofs.Lexemes
import TextMate.Proofs.Marks

/-!
# Balanced texts

A balanced text is a row of characters, escapes, sets, groups, quantifiers and bars, where a group holds a
balanced text again. This grammar has no stack and no state. The scan passes over each of these things as
one: it comes out where it went in, and at the top level it has read the first character only (`Single`).
A text that the scan reads without leaving anything open is balanced (`SelfContained.balanced`).
-/

set_option autoImplicit false

namespace TextMate.Regex

/-- A character that stands for itself outside a set. -/
def isOrdinary (c : Char) : Bool :=
  c ∉ ['\\', '(', ')', '[', '{', '|', '*', '+', '?']

inductive Balanced : List Char → Prop where
  | nil : Balanced []
  | char {cs c} : Balanced cs → isOrdinary c = true → Balanced (cs ++ [c])
  | escape {cs} (c : Char) : Balanced cs → Balanced (cs ++ ['\\', c])
  | set {cs s} : Balanced cs → IsSet s → Balanced (cs ++ s)
  | group {cs inner} : Balanced cs → Balanced inner → Balanced (cs ++ '(' :: (inner ++ [')']))
  | quantifier {cs q} : Balanced cs → IsQuantifier q → Balanced (cs ++ q)
  | bar {cs} : Balanced cs → Balanced (cs ++ ['|'])

/-- A text that matches by itself. The head of a group without a number is part of the text inside. -/
inductive IsAtom : List Char → Prop where
  | char {c} : isOrdinary c = true → IsAtom [c]
  | escape (c : Char) : IsAtom ['\\', c]
  | set {s} : IsSet s → IsAtom s
  | group {inner} : Balanced inner → IsAtom ('(' :: (inner ++ [')']))

/-- Outside sets the scan of the text comes out where it went in, and inside a group nothing is at the top
level. -/
structure Returns (cs : List Char) : Prop where
  after : ∀ nest, .set ∉ nest → Cursor.after .interval ⟨nest, .nothing⟩ cs = ⟨nest, .nothing⟩
  inside : ∀ nest, .set ∉ nest → nest ≠ [] → marks ⟨nest, .nothing⟩ cs = []

/-- The text is one thing that begins with `c`. -/
structure Single (c : Char) (cs : List Char) : Prop extends Returns cs where
  marks : marks .top cs = [c]

namespace Returns

variable {as bs : List Char}

theorem nil : Returns [] :=
  ⟨fun _ _ => rfl, fun _ _ _ => rfl⟩

theorem append (ha : Returns as) (hb : Returns bs) : Returns (as ++ bs) where
  after nest outside := by
    rw [Cursor.after_append, ha.after nest outside, hb.after nest outside]
  inside nest outside below := by
    rw [marks_append, ha.inside nest outside below, ha.after nest outside, List.nil_append,
      hb.inside nest outside below]

theorem after_top (h : Returns as) : Cursor.top.after .interval as = .top :=
  h.after [] List.not_mem_nil

theorem marks_append (h : Returns as) (bs : List Char) :
    marks .top (as ++ bs) = marks .top as ++ marks .top bs := by
  rw [Regex.marks_append, h.after_top]

end Returns

theorem marks_below {nest : List Bracket} {pending : Pending} {c : Char} {rest : List Char}
    (h : nest ≠ [] ∨ pending ≠ .nothing) :
    marks ⟨nest, pending⟩ (c :: rest) = marks (Cursor.step .interval ⟨nest, pending⟩ c) rest := by
  rw [marks, if_neg]
  simp only [Cursor.top, Cursor.mk.injEq, not_and_or]
  exact h

/-- All but the first character of a set is inside. -/
theorem OpenSet.marks_eq {stage : SetStage} {s : List Char} (h : OpenSet stage s) {k : Cursor}
    (hk : k.Unclaimed) : marks k s = marks k ['['] := by
  induction h generalizing k with
  | start => rfl
  | negated =>
    rw [show ['[', '^'] = ['['] ++ ['^'] from rfl, marks_append, Cursor.after_cons,
      Cursor.step_openSet hk]
    exact List.append_nil _
  | literal opened _ ih | char opened _ _ ih =>
    rw [marks_append, ih hk, opened.after .interval hk]
    exact List.append_nil _
  | @escape stage s c opened ih =>
    have inner : marks ⟨.set :: k.nest, stage.pending⟩ ['\\', c] = [] := by
      rw [marks_below (.inl (List.cons_ne_nil _ _)), Cursor.step_backslash (Cursor.unclaimed_stage _),
        marks_below (.inl (List.cons_ne_nil _ _))]
      rfl
    rw [marks_append, ih hk, opened.after .interval hk, inner, List.append_nil]
  | set opened inner ihs iht =>
    rw [marks_append, ihs hk, opened.after .interval hk, marks_append,
      iht (Cursor.unclaimed_stage _), inner.after .interval (Cursor.unclaimed_stage _)]
    exact List.append_nil _

variable {c : Char} {cs : List Char}

theorem IsSet.single (h : IsSet cs) : Single '[' cs := by
  obtain ⟨s, opened, rfl⟩ := id h
  have free : ∀ nest, Cursor.Unclaimed ⟨nest, .nothing⟩ := fun nest => ⟨by simp, by simp⟩
  have marks_eq : ∀ nest, marks ⟨nest, .nothing⟩ (s ++ [']']) = marks ⟨nest, .nothing⟩ ['['] := by
    intro nest
    rw [marks_append, opened.marks_eq (free nest), opened.after .interval (free nest)]
    exact List.append_nil _
  refine ⟨⟨fun nest _ => h.after .interval (free nest), fun nest _ below => ?_⟩, marks_eq []⟩
  rw [marks_eq, marks_below (.inl below)]
  rfl

theorem not_mem_of_isOrdinary (h : isOrdinary c = true) :
    c ∉ ['\\', '(', ')', '[', '{'] ∧ c ∉ ['|', '*', '+', '?'] := by
  simp only [isOrdinary, decide_eq_true_eq, List.mem_cons, List.not_mem_nil, or_false, not_or] at h ⊢
  grind

/-- A character that neither opens nor closes anything, nor takes the next one along. -/
theorem single_char (plain : c ∉ ['\\', '(', ')', '[', '{']) : Single c [c] := by
  simp only [List.mem_cons, List.not_mem_nil, or_false, not_or] at plain
  refine ⟨⟨fun nest outside => ?_, fun nest _ below => ?_⟩, rfl⟩
  · have notInSet : nest.head? ≠ some .set := fun first => outside (List.mem_of_head? first)
    simp [Cursor.step, Cursor.read, Cursor.readOutsideSet, notInSet, plain]
  · rw [marks_below (.inl below)]
    rfl

theorem single_escape (c : Char) : Single '\\' ['\\', c] := by
  refine ⟨⟨fun nest _ => rfl, fun nest outside below => ?_⟩, rfl⟩
  rw [marks_below (.inl below), Cursor.step_backslash (Cursor.free_nothing outside).unclaimed,
    marks_below (.inl below)]
  rfl

theorem single_interval {body : List Char} (h : ∀ c ∈ body, isIntervalChar c = true) :
    Single '{' ('{' :: (body ++ ['}'])) := by
  have step : ∀ nest, .set ∉ nest →
      Cursor.step .interval ⟨nest, .nothing⟩ '{' = ⟨nest, .interval⟩ :=
    fun nest outside => (Cursor.free_nothing outside).step_openBrace
  refine ⟨⟨fun nest outside => ?_, fun nest outside below => ?_⟩, ?_⟩
  · rw [Cursor.after_cons, step nest outside, Cursor.after_append, Cursor.after_interval h]
    rfl
  · rw [marks_below (.inl below), step nest outside, marks_interval h]
  · rw [marks, if_pos rfl]
    exact congrArg _ (marks_interval h)

theorem IsQuantifier.single (h : IsQuantifier cs) : ∃ c, Single c cs ∧ markPrecedence c = .quantified := by
  rcases h with h | ⟨body, rfl, inner⟩
  · simp only [List.mem_cons, List.not_mem_nil, or_false] at h
    rcases h with rfl | rfl | rfl <;> exact ⟨_, single_char (by decide), rfl⟩
  · exact ⟨'{', single_interval inner, rfl⟩

/-- In a group a text that comes out where it went in is inside up to the parenthesis that closes the
group. -/
theorem Returns.group (h : Returns cs) : Single '(' ('(' :: (cs ++ [')'])) := by
  have step : ∀ nest, .set ∉ nest →
      Cursor.step .interval ⟨nest, .nothing⟩ '(' = ⟨.group :: nest, .groupHead⟩ :=
    fun nest outside => (Cursor.free_nothing outside).step_openGroup
  have inGroup : ∀ nest : List Bracket, .set ∉ nest → .set ∉ Bracket.group :: nest := by simp
  have body : ∀ nest, .set ∉ nest → marks ⟨.group :: nest, .groupHead⟩ (cs ++ [')']) = [] := by
    intro nest outside
    rw [marks_groupHead, Regex.marks_append, h.inside _ (inGroup nest outside) (List.cons_ne_nil _ _),
      h.after _ (inGroup nest outside), List.nil_append, marks_below (.inl (List.cons_ne_nil _ _))]
    rfl
  refine ⟨⟨fun nest outside => ?_, fun nest outside below => ?_⟩, ?_⟩
  · rw [Cursor.after_cons, step nest outside, Cursor.after_groupHead _ (by simp), Cursor.after_append,
      h.after _ (inGroup nest outside)]
    rfl
  · rw [marks_below (.inl below), step nest outside, body nest outside]
  · rw [marks, if_pos rfl]
    exact congrArg _ (body [] List.not_mem_nil)

theorem Balanced.returns (h : Balanced cs) : Returns cs := by
  induction h with
  | nil => exact .nil
  | char _ ordinary ih => exact ih.append (single_char (not_mem_of_isOrdinary ordinary).1).toReturns
  | escape c _ ih => exact ih.append (single_escape c).toReturns
  | set _ whole ih => exact ih.append whole.single.toReturns
  | group _ _ ih inner => exact ih.append inner.group.toReturns
  | quantifier _ q ih =>
    obtain ⟨c, single, -⟩ := q.single
    exact ih.append single.toReturns
  | bar _ ih => exact ih.append (single_char (by decide)).toReturns

/-- The first character of an atom binds like an atom. -/
theorem IsAtom.single (h : IsAtom cs) : ∃ c, Single c cs ∧ markPrecedence c = .sequence := by
  cases h with
  | @char c ordinary =>
    obtain ⟨plain, loose⟩ := not_mem_of_isOrdinary ordinary
    refine ⟨c, single_char plain, ?_⟩
    simp only [List.mem_cons, List.not_mem_nil, or_false, not_or] at plain loose
    simp [markPrecedence, plain, loose]
  | escape c => exact ⟨'\\', single_escape c, rfl⟩
  | set whole => exact ⟨'[', whole.single, rfl⟩
  | group inner => exact ⟨'(', inner.returns.group, rfl⟩

/-- Balanced texts, `depth` of them each in a group of the one before it. -/
inductive OpenGroups : Nat → List Char → Prop where
  | row {s} : Balanced s → OpenGroups 0 s
  | inside {depth s t} : OpenGroups depth s → Balanced t → OpenGroups (depth + 1) (s ++ '(' :: t)

namespace OpenGroups

variable {depth : Nat}

theorem add (h : OpenGroups depth cs) {u : List Char}
    (grows : ∀ t, Balanced t → Balanced (t ++ u)) : OpenGroups depth (cs ++ u) := by
  cases h with
  | row balanced => exact .row (grows _ balanced)
  | inside outer balanced =>
    rw [List.append_assoc]
    exact .inside outer (grows _ balanced)

theorem close (h : OpenGroups (depth + 1) cs) : OpenGroups depth (cs ++ [')']) := by
  cases h with
  | inside outer body =>
    rw [List.append_assoc]
    exact outer.add fun u hu => hu.group body

/-- A character outside sets that lays no claim to what comes next, and no group is closed that is not
open. -/
theorem char (h : OpenGroups depth cs) (plain : c ∉ ['\\', '[']) (brace : c ≠ '{')
    (allowed : c = ')' → depth ≠ 0) :
    ∃ depth', OpenGroups depth' (cs ++ [c]) ∧ List.replicate depth' Bracket.group =
      if c = '(' then .group :: List.replicate depth .group
      else if c = ')' then (List.replicate depth .group).tail else List.replicate depth .group := by
  by_cases opens : c = '('
  · subst opens
    exact ⟨depth + 1, .inside h .nil, rfl⟩
  rw [if_neg opens]
  by_cases closes : c = ')'
  · subst closes
    obtain ⟨outer, rfl⟩ := Nat.exists_eq_succ_of_ne_zero (allowed rfl)
    exact ⟨outer, h.close, rfl⟩
  rw [if_neg closes]
  refine ⟨depth, h.add fun t ht => ?_, rfl⟩
  by_cases bar : c = '|'
  · subst bar
    exact ht.bar
  by_cases quantifies : c ∈ ['*', '+', '?']
  · exact ht.quantifier (.inl (by simpa using quantifies))
  · simp only [List.mem_cons, List.not_mem_nil, or_false, not_or] at plain quantifies
    exact ht.char (by simp [isOrdinary, plain, opens, closes, brace, bar, quantifies])

end OpenGroups

/-- Outside sets a parenthesis opens or closes a group and any other character does not. -/
theorem Cursor.Free.nest_step {k : Cursor} (h : k.Free) (plain : c ∉ ['\\', '[']) (brace : c ≠ '{') :
    (k.step .interval c).nest =
      if c = '(' then .group :: k.nest else if c = ')' then k.nest.tail else k.nest := by
  simp only [List.mem_cons, List.not_mem_nil, or_false, not_or] at plain
  rcases h.unclaimed.step_cases .interval c with alone | ⟨rfl | rfl, stage, claimed⟩
  · simp only [alone, read, readOutsideSet, plain, brace, h.head?_ne, if_false, false_and]
    split
    · rfl
    · split <;> rfl
  · rw [claimed]
    rfl
  · rw [claimed]
    rfl

/-- No parenthesis may close a group that is not open. -/
theorem Cursor.Unclaimed.nest_ne_nil {k : Cursor} (h : k.Unclaimed) (allowed : k.Allows ')') :
    k.nest ≠ [] := by
  obtain ⟨nest, pending⟩ := k
  cases pending with
  | escape => exact absurd rfl h.1
  | interval => exact absurd rfl h.2
  | nothing | groupHead | setHead | negatedSetHead => exact fun empty => allowed empty rfl

/-- Up to the brace that closes it, an interval has no other characters than its own. -/
theorem isIntervalChar_of_allowsAll {nest : List Bracket} {body : List Char} (unclosed : '}' ∉ body)
    (h : Cursor.AllowsAll ⟨nest, .interval⟩ body) : ∀ c ∈ body, isIntervalChar c = true := by
  induction body with
  | nil => simp
  | cons d rest ih =>
    simp only [List.mem_cons, not_or] at unclosed
    obtain ⟨allowed, later⟩ := h
    have inner : isIntervalChar d = true := Or.resolve_left allowed (Ne.symm unclosed.1)
    rw [Cursor.step_interval inner] at later
    intro c hc
    rcases List.mem_cons.1 hc with rfl | hc
    · exact inner
    · exact ih unclosed.2 later c hc

/-- A row of whole things in which no group is closed too often is a row of open groups, and those are the
ones that the scan has open. -/
theorem Lexed.openGroups (h : Lexed .interval cs) (allowed : Cursor.top.AllowsAll cs) :
    ∃ depth, OpenGroups depth cs ∧
      (Cursor.top.after .interval cs).nest = List.replicate depth .group := by
  -- Escapes, sets and intervals leave the groups as they are, so only single characters open and close some.
  induction h with
  | nil => exact ⟨0, .row .nil, rfl⟩
  | @char cs c lexed plain brace ih =>
    rw [Cursor.allowsAll_append] at allowed
    obtain ⟨depth, groups, nest⟩ := ih allowed.1
    have free := lexed_iff.1 lexed
    have within : c = ')' → depth ≠ 0 := by
      rintro rfl rfl
      exact free.unclaimed.nest_ne_nil allowed.2.1 nest
    obtain ⟨depth', groups', nest'⟩ := groups.char plain (brace rfl) within
    refine ⟨depth', groups', ?_⟩
    rw [Cursor.after_append, nest', ← nest]
    exact free.nest_step plain (brace rfl)
  | @escape cs c lexed ih =>
    rw [Cursor.allowsAll_append] at allowed
    obtain ⟨depth, groups, nest⟩ := ih allowed.1
    refine ⟨depth, groups.add fun t ht => ht.escape c, ?_⟩
    rw [Cursor.after_append, Cursor.after_cons, Cursor.step_backslash (lexed_iff.1 lexed).unclaimed,
      ← nest]
    rfl
  | set lexed whole ih =>
    rw [Cursor.allowsAll_append] at allowed
    obtain ⟨depth, groups, nest⟩ := ih allowed.1
    refine ⟨depth, groups.add fun t ht => ht.set whole, ?_⟩
    rw [Cursor.after_append, whole.after .interval (lexed_iff.1 lexed).unclaimed, ← nest]
  | @interval cs body lexed _ unclosed ih =>
    rw [Cursor.allowsAll_append] at allowed
    obtain ⟨depth, groups, nest⟩ := ih allowed.1
    have free := lexed_iff.1 lexed
    have inner := allowed.2.2
    rw [free.step_openBrace, Cursor.allowsAll_append] at inner
    have quantifier : IsQuantifier ('{' :: (body ++ ['}'])) :=
      .inr ⟨body, rfl, isIntervalChar_of_allowsAll unclosed inner.1⟩
    refine ⟨depth, groups.add fun t ht => ht.quantifier quantifier, ?_⟩
    rw [Cursor.after_append, Cursor.after_cons, free.step_openBrace, Cursor.after_append,
      Cursor.after_unclosed unclosed, ← nest]
    rfl

theorem SelfContained.balanced (h : SelfContained cs) : Balanced cs := by
  have free : (Cursor.top.after .interval cs).Free := by
    rw [h.closed]
    exact Cursor.free_top
  obtain ⟨depth, groups, nest⟩ := (lexed_iff.2 free).openGroups h.allowed
  rw [h.closed] at nest
  cases groups with
  | row balanced => exact balanced
  | inside _ _ => cases nest

end TextMate.Regex
