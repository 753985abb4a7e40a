import Mathlib.Data.List.Induction
import TextMate.Proofs.Openings
import TextMate.Proofs.Sets

/-!
# Escapes, sets and intervals of any text

A raw regex need not be well-formed, but every part of it up to some place either is a row of whole
characters, escapes and sets, or it ends inside the last one of them (`standing`). Where braces are read
as intervals, a brace also takes along all that comes up to the next closing one. So it can be said
without the scan which characters of a text are neither escaped nor in a set, and the scan agrees
(`lexed_iff`).
-/

set_option autoImplicit false

namespace TextMate.Regex

/-- The text is a row of characters, escapes and sets, and of intervals if braces are read as intervals.
What comes next is neither escaped nor in a set. -/
inductive Lexed (braces : Braces) : List Char → Prop where
  | nil : Lexed braces []
  | char {cs c} : Lexed braces cs → c ∉ ['\\', '['] → (braces = .interval → c ≠ '{') →
      Lexed braces (cs ++ [c])
  | escape {cs} (c : Char) : Lexed braces cs → Lexed braces (cs ++ ['\\', c])
  | set {cs s} : Lexed braces cs → IsSet s → Lexed braces (cs ++ s)
  | interval {cs body} : Lexed braces cs → braces = .interval → '}' ∉ body →
      Lexed braces (cs ++ '{' :: (body ++ ['}']))

namespace Cursor

/-- The next character is neither escaped, nor part of an interval, nor in a set. -/
structure Free (k : Cursor) : Prop where
  unclaimed : k.Unclaimed
  outside : .set ∉ k.nest

variable {braces : Braces} {k : Cursor} {nest : List Bracket} {c : Char}

theorem free_top : top.Free :=
  ⟨⟨by decide, by decide⟩, List.not_mem_nil⟩

theorem free_nothing (h : .set ∉ nest) : Free ⟨nest, .nothing⟩ :=
  ⟨⟨by simp, by simp⟩, h⟩

theorem Free.head?_ne (h : k.Free) : k.nest.head? ≠ some .set :=
  fun first => h.outside (List.mem_of_head? first)

/-- Outside sets only a backslash or a bracket lays claim to what comes next. -/
theorem Free.step_char (h : k.Free) (plain : c ∉ ['\\', '[']) (brace : braces = .interval → c ≠ '{') :
    (k.step braces c).Free := by
  simp only [List.mem_cons, List.not_mem_nil, or_false, not_or] at plain
  rcases h.unclaimed.step_cases braces c with alone | ⟨-, stage, claimed⟩
  · have inGroup : .set ∉ Bracket.group :: k.nest := by simp [h.outside]
    have below : .set ∉ k.nest.tail := fun mem => h.outside (List.mem_of_mem_tail mem)
    have brace' : ¬ (c = '{' ∧ braces = .interval) := fun both => brace both.2 both.1
    simp only [alone, read, readOutsideSet, if_neg plain.1, if_neg plain.2, if_neg brace',
      if_neg h.head?_ne]
    split
    · exact ⟨⟨by simp, by simp⟩, inGroup⟩
    · split
      · exact free_nothing below
      · exact free_nothing h.outside
  · rw [claimed]
    exact ⟨unclaimed_stage stage, h.outside⟩

theorem Free.step_openBrace (h : k.Free) : k.step .interval '{' = ⟨k.nest, .interval⟩ := by
  rw [h.unclaimed.step_eq_read .interval (by decide)]
  simp [read, readOutsideSet, h.head?_ne]

theorem Free.step_openGroup (h : k.Free) : k.step braces '(' = ⟨.group :: k.nest, .groupHead⟩ := by
  rw [h.unclaimed.step_eq_read braces (by decide)]
  simp [read, readOutsideSet, h.head?_ne]

/-- An interval goes on up to the first closing brace. -/
theorem after_unclosed {body : List Char} (h : '}' ∉ body) :
    after braces ⟨nest, .interval⟩ body = ⟨nest, .interval⟩ := by
  induction body with
  | nil => rfl
  | cons c rest ih =>
    simp only [List.mem_cons, not_or] at h
    have stays : step braces ⟨nest, .interval⟩ c = ⟨nest, .interval⟩ := if_neg fun brace => h.1 brace.symm
    rw [after_cons, stays]
    exact ih h.2

end Cursor

theorem Lexed.after {braces : Braces} {cs : List Char} (h : Lexed braces cs) {k : Cursor} (hk : k.Free) :
    (k.after braces cs).Free := by
  induction h with
  | nil => exact hk
  | char _ plain brace ih =>
    rw [Cursor.after_append]
    exact ih.step_char plain brace
  | escape c _ ih =>
    rw [Cursor.after_append, Cursor.after_cons, Cursor.step_backslash ih.unclaimed]
    exact Cursor.free_nothing ih.outside
  | set _ whole ih =>
    rw [Cursor.after_append, whole.after braces ih.unclaimed]
    exact Cursor.free_nothing ih.outside
  | interval _ intervals unclosed ih =>
    subst intervals
    rw [Cursor.after_append, Cursor.after_cons, ih.step_openBrace, Cursor.after_append,
      Cursor.after_unclosed unclosed]
    exact Cursor.free_nothing ih.outside

/-- Where a scan stands behind a text: behind something whole, or inside an escape, a set or an interval.
-/
inductive Standing (braces : Braces) : List Char → Cursor → Prop where
  | free {cs k} : Lexed braces cs → k.Free → Standing braces cs k
  | escape {cs nest} : Lexed braces cs → .set ∉ nest → Standing braces (cs ++ ['\\']) ⟨nest, .escape⟩
  | set {cs s depth pending nest} : Lexed braces cs → SetRead depth pending s → .set ∉ nest →
      Standing braces (cs ++ s) ⟨List.replicate (depth + 1) .set ++ nest, pending⟩
  | interval {cs body nest} : Lexed braces cs → braces = .interval → '}' ∉ body → .set ∉ nest →
      Standing braces (cs ++ '{' :: body) ⟨nest, .interval⟩

namespace Standing

variable {braces : Braces} {cs : List Char} {k : Cursor}

theorem step (h : Standing braces cs k) (c : Char) : Standing braces (cs ++ [c]) (k.step braces c) := by
  cases h with
  | free lexed hk =>
    by_cases backslash : c = '\\'
    · subst backslash
      rw [Cursor.step_backslash hk.unclaimed]
      exact .escape lexed hk.outside
    by_cases opens : c = '['
    · subst opens
      rw [Cursor.step_openSet hk.unclaimed]
      exact .set lexed .start hk.outside
    by_cases brace : c = '{' ∧ braces = .interval
    · obtain ⟨rfl, rfl⟩ := brace
      rw [hk.step_openBrace]
      exact .interval lexed rfl List.not_mem_nil hk.outside
    · have plain : c ∉ ['\\', '['] := by simp [backslash, opens]
      have brace' : braces = .interval → c ≠ '{' := fun hb hc => brace ⟨hc, hb⟩
      exact .free (lexed.char plain brace') (hk.step_char plain brace')
  | escape lexed outside =>
    rw [List.append_assoc]
    exact .free (lexed.escape c) (Cursor.free_nothing outside)
  | @set front s depth pending nest lexed sets outside =>
    rw [List.append_assoc]
    rcases sets.step braces nest c with ⟨depth', pending', next, sets'⟩ | ⟨whole, next⟩
    · rw [next]
      exact .set lexed sets' outside
    · rw [next]
      exact .free (lexed.set whole) (Cursor.free_nothing outside)
  | @interval front body nest lexed intervals unclosed outside =>
    rw [List.append_assoc, List.cons_append]
    by_cases closes : c = '}'
    · subst closes
      exact .free (lexed.interval intervals unclosed) (Cursor.free_nothing outside)
    · have stays : Cursor.step braces ⟨nest, .interval⟩ c = ⟨nest, .interval⟩ := if_neg closes
      rw [stays]
      exact .interval lexed intervals (by simp [unclosed, Ne.symm closes]) outside

end Standing

theorem standing (braces : Braces) (cs : List Char) : Standing braces cs (Cursor.top.after braces cs) := by
  induction cs using List.reverseRecOn with
  | nil => exact .free .nil Cursor.free_top
  | append_singleton cs c ih =>
    rw [Cursor.after_append]
    exact ih.step c

theorem SetRead.pending_ne {depth : Nat} {pending : Pending} {s : List Char} (h : SetRead depth pending s) :
    pending ≠ .interval ∧ pending ≠ .groupHead := by
  cases h with
  | between stage _ => cases stage <;> decide
  | escape _ => decide

/-- The scan knows which characters are neither escaped nor in a set. -/
theorem lexed_iff {braces : Braces} {cs : List Char} :
    Lexed braces cs ↔ (Cursor.top.after braces cs).Free := by
  constructor
  · intro h
    exact h.after Cursor.free_top
  · intro free
    generalize at' : Cursor.top.after braces cs = k at free
    have stands := standing braces cs
    rw [at'] at stands
    cases stands with
    | free lexed _ => exact lexed
    | escape _ _ => exact absurd rfl free.unclaimed.1
    | set _ _ _ => exact absurd (List.mem_append_left _ (by simp)) free.outside
    | interval _ _ _ _ => exact absurd rfl free.unclaimed.2

instance (k : Cursor) : Decidable k.Free :=
  decidable_of_iff ((k.pending ≠ .escape ∧ k.pending ≠ .interval) ∧ .set ∉ k.nest)
    ⟨fun h => ⟨h.1, h.2⟩, fun h => ⟨h.unclaimed, h.outside⟩⟩

instance (braces : Braces) (cs : List Char) : Decidable (Lexed braces cs) :=
  decidable_of_iff _ lexed_iff.symm

/-- A group opens at a parenthesis that is neither escaped nor in a set. -/
theorem groupHead_iff {braces : Braces} {cs : List Char} {c : Char} :
    ((Cursor.top.after braces cs).step braces c).pending = .groupHead ↔ c = '(' ∧ Lexed braces cs := by
  constructor
  · intro head
    obtain rfl := Cursor.eq_of_groupHead head
    generalize at' : Cursor.top.after braces cs = k at head
    have stands := standing braces cs
    rw [at'] at stands
    cases stands with
    | free lexed _ => exact ⟨rfl, lexed⟩
    | escape _ _ => cases head
    | @set _ _ _ _ nest _ sets _ =>
      rcases sets.step braces nest '(' with ⟨_, _, next, sets'⟩ | ⟨_, next⟩
      · rw [next] at head
        exact absurd head sets'.pending_ne.2
      · rw [next] at head
        cases head
    | interval _ _ _ _ => cases head
  · rintro ⟨rfl, lexed⟩
    rw [(lexed_iff.1 lexed).step_openGroup]

/-- An interval that is not closed yet begins at a brace that is neither escaped nor in a set. -/
theorem exists_openBrace {braces : Braces} {cs : List Char}
    (h : (Cursor.top.after braces cs).pending = .interval) :
    ∃ front body, cs = front ++ '{' :: body ∧ Lexed braces front ∧ '}' ∉ body := by
  generalize at' : Cursor.top.after braces cs = k at h
  have stands := standing braces cs
  rw [at'] at stands
  cases stands with
  | free _ free => exact absurd h free.unclaimed.2
  | escape _ _ => cases h
  | set _ sets _ => exact absurd h sets.pending_ne.1
  | interval lexed _ unclosed _ => exact ⟨_, _, rfl, lexed, unclosed⟩

end TextMate.Regex
