import TextMate.Proofs.SelfContained

/-!
# Sets of characters

A set begins with `[` or `[^`, and a `]` right behind that is a literal. It goes on with characters,
escapes and sets of its own up to the `]` that closes it. These rules do not mention the scan. The scan
goes through a set and comes out where it went in (`IsSet.after`), and as long as it is inside, what it
has read is a row of open sets, each but the first inside the one before it (`SetRead.step`).
-/

set_option autoImplicit false

namespace TextMate.Regex

/-- What an open set has behind its `[`. -/
inductive SetStage where
  | nothing
  /-- The `^` of a negated set. -/
  | negation
  | contents
  deriving DecidableEq

/-- What that asks of the next character. -/
def SetStage.pending : SetStage → Pending
  | nothing => .setHead
  | negation => .negatedSetHead
  | contents => .nothing

/-- The text of a set before the `]` that closes it. -/
inductive OpenSet : SetStage → List Char → Prop where
  | start : OpenSet .nothing ['[']
  | negated : OpenSet .negation ['[', '^']
  /-- A `]` with no contents before it is a literal. -/
  | literal {stage s} : OpenSet stage s → stage ≠ .contents → OpenSet .contents (s ++ [']'])
  | char {stage s c} : OpenSet stage s → c ∉ ['\\', '[', ']'] → (stage = .nothing → c ≠ '^') →
      OpenSet .contents (s ++ [c])
  | escape {stage s} (c : Char) : OpenSet stage s → OpenSet .contents (s ++ ['\\', c])
  | set {stage s t} : OpenSet stage s → OpenSet .contents t → OpenSet .contents (s ++ (t ++ [']']))

/-- The text of a whole set. -/
def IsSet (cs : List Char) : Prop :=
  ∃ s, OpenSet .contents s ∧ cs = s ++ [']']

/-- Open sets, `depth` of them inside the first one, each inside the one before it. -/
inductive OpenSets : Nat → SetStage → List Char → Prop where
  | one {stage s} : OpenSet stage s → OpenSets 0 stage s
  | inside {depth stage stage' s t} : OpenSets depth stage s → OpenSet stage' t →
      OpenSets (depth + 1) stage' (s ++ t)

/-- What is read of a set while it is open, and what that asks of the next character. -/
inductive SetRead : Nat → Pending → List Char → Prop where
  | between {depth s} (stage : SetStage) : OpenSets depth stage s → SetRead depth stage.pending s
  | escape {depth stage s} : OpenSets depth stage s → SetRead depth .escape (s ++ ['\\'])

namespace Cursor

/-- The next character is not escaped, and it is not part of an interval. -/
def Unclaimed (k : Cursor) : Prop :=
  k.pending ≠ .escape ∧ k.pending ≠ .interval

variable {braces : Braces} {k : Cursor} {nest : List Bracket} {c : Char}

theorem unclaimed_stage (stage : SetStage) : Unclaimed ⟨nest, stage.pending⟩ := by
  cases stage <;> exact ⟨by simp [SetStage.pending], by simp [SetStage.pending]⟩

/-- A character is read by itself, unless it belongs to the head of a set. -/
theorem Unclaimed.step_cases (h : k.Unclaimed) (braces : Braces) (c : Char) :
    k.step braces c = read braces k.nest c ∨
      (c = '^' ∨ c = ']') ∧ ∃ stage : SetStage, k.step braces c = ⟨k.nest, stage.pending⟩ := by
  obtain ⟨nest, pending⟩ := k
  cases pending with
  | nothing | groupHead => exact .inl rfl
  | escape => exact absurd rfl h.1
  | interval => exact absurd rfl h.2
  | setHead =>
    by_cases negates : c = '^'
    · exact .inr ⟨.inl negates, .negation, if_pos negates⟩
    by_cases literal : c = ']'
    · exact .inr ⟨.inr literal, .contents, by simp [step, literal, SetStage.pending]⟩
    · exact .inl (by simp [step, negates, literal])
  | negatedSetHead =>
    by_cases literal : c = ']'
    · exact .inr ⟨.inr literal, .contents, if_pos literal⟩
    · exact .inl (if_neg literal)

theorem Unclaimed.step_eq_read (h : k.Unclaimed) (braces : Braces) (plain : c ∉ ['^', ']']) :
    k.step braces c = read braces k.nest c := by
  simp only [List.mem_cons, List.not_mem_nil, or_false] at plain
  exact (h.step_cases braces c).resolve_right fun head => plain head.1

/-- A `[` opens a set inside and outside of sets. -/
theorem step_openSet (h : k.Unclaimed) : k.step braces '[' = ⟨.set :: k.nest, .setHead⟩ := by
  rw [h.step_eq_read braces (by decide)]
  simp [read, readInSet, readOutsideSet]

/-- A backslash takes the next character along. -/
theorem step_backslash (h : k.Unclaimed) : k.step braces '\\' = ⟨k.nest, .escape⟩ := by
  rw [h.step_eq_read braces (by decide)]
  rfl

/-- With no contents before it a `]` does not close the set. -/
theorem step_literal_close {stage : SetStage} (h : stage ≠ .contents) :
    step braces ⟨.set :: nest, stage.pending⟩ ']' = ⟨.set :: nest, .nothing⟩ := by
  cases stage with
  | nothing | negation => rfl
  | contents => exact absurd rfl h

/-- Any other character belongs to the contents of the set. -/
theorem step_setChar {stage : SetStage} (h : c ∉ ['\\', '[', ']']) (hc : stage = .nothing → c ≠ '^') :
    step braces ⟨.set :: nest, stage.pending⟩ c = ⟨.set :: nest, .nothing⟩ := by
  simp only [List.mem_cons, List.not_mem_nil, or_false, not_or] at h
  have alone : read braces (.set :: nest) c = ⟨.set :: nest, .nothing⟩ := by
    simp [read, readInSet, h]
  cases stage with
  | nothing => simp [step, SetStage.pending, hc rfl, h, alone]
  | negation => simp [step, SetStage.pending, h, alone]
  | contents => exact alone

end Cursor

namespace OpenSet

variable {stage : SetStage} {s : List Char}

/-- Reading an open set, the scan stands inside it. -/
theorem after (h : OpenSet stage s) (braces : Braces) {k : Cursor} (hk : k.Unclaimed) :
    k.after braces s = ⟨.set :: k.nest, stage.pending⟩ := by
  induction h generalizing k with
  | start => exact Cursor.step_openSet hk
  | negated =>
    rw [Cursor.after_cons, Cursor.step_openSet hk]
    rfl
  | literal _ first ih =>
    rw [Cursor.after_append, ih hk]
    exact Cursor.step_literal_close first
  | char _ plain first ih =>
    rw [Cursor.after_append, ih hk]
    exact Cursor.step_setChar plain first
  | escape c _ ih =>
    rw [Cursor.after_append, ih hk, Cursor.after_cons,
      Cursor.step_backslash (Cursor.unclaimed_stage _)]
    rfl
  | set _ _ ihs iht =>
    rw [Cursor.after_append, ihs hk, Cursor.after_append, iht (Cursor.unclaimed_stage _)]
    rfl

end OpenSet

/-- A set is read from where it begins back to there. -/
theorem IsSet.after {cs : List Char} (h : IsSet cs) (braces : Braces) {k : Cursor}
    (hk : k.Unclaimed) : k.after braces cs = ⟨k.nest, .nothing⟩ := by
  obtain ⟨s, opened, rfl⟩ := h
  rw [Cursor.after_append, opened.after braces hk]
  rfl

theorem OpenSet.startsWith {stage : SetStage} {s : List Char} (h : OpenSet stage s) :
    ∃ rest, s = '[' :: rest := by
  induction h with
  | start | negated => exact ⟨_, rfl⟩
  | literal _ _ ih | char _ _ _ ih | escape _ _ ih | set _ _ ih _ =>
    obtain ⟨rest, rfl⟩ := ih
    exact ⟨_, rfl⟩

theorem IsSet.startsWith {cs : List Char} (h : IsSet cs) : ∃ rest, cs = '[' :: rest := by
  obtain ⟨s, opened, rfl⟩ := h
  obtain ⟨rest, rfl⟩ := opened.startsWith
  exact ⟨_, rfl⟩

namespace OpenSets

variable {depth : Nat} {stage : SetStage} {s : List Char}

/-- What is added to the innermost set is added to the row. -/
theorem add (h : OpenSets depth stage s) {stage' : SetStage} {u : List Char}
    (grows : ∀ t, OpenSet stage t → OpenSet stage' (t ++ u)) : OpenSets depth stage' (s ++ u) := by
  cases h with
  | one opened => exact .one (grows _ opened)
  | inside outer opened =>
    rw [List.append_assoc]
    exact .inside outer (grows _ opened)

/-- A `]` closes the innermost set, and this may be the only one. -/
theorem close (h : OpenSets depth .contents s) :
    (depth = 0 ∧ IsSet (s ++ [']'])) ∨
      ∃ outer, depth = outer + 1 ∧ OpenSets outer .contents (s ++ [']']) := by
  cases h with
  | one opened => exact .inl ⟨rfl, _, opened, rfl⟩
  | @inside outer _ _ _ t around opened =>
    refine .inr ⟨outer, rfl, ?_⟩
    rw [List.append_assoc]
    exact around.add fun u hu => .set hu opened

end OpenSets

namespace SetRead

variable {depth : Nat} {pending : Pending} {s : List Char}

theorem start : SetRead 0 .setHead ['['] :=
  .between .nothing (.one .start)

/-- A character behind a row of open sets leaves a row of open sets, or it closes the only one. -/
theorem step (h : SetRead depth pending s) (braces : Braces) (nest : List Bracket) (c : Char) :
    (∃ depth' pending', Cursor.step braces ⟨List.replicate (depth + 1) .set ++ nest, pending⟩ c =
        ⟨List.replicate (depth' + 1) .set ++ nest, pending'⟩ ∧ SetRead depth' pending' (s ++ [c])) ∨
      IsSet (s ++ [c]) ∧
        Cursor.step braces ⟨List.replicate (depth + 1) .set ++ nest, pending⟩ c = ⟨nest, .nothing⟩ := by
  cases h with
  | @escape stage _ sets =>
    refine .inl ⟨depth, .nothing, rfl, ?_⟩
    rw [List.append_assoc]
    exact .between .contents (sets.add fun u hu => .escape c hu)
  | between stage sets =>
    rw [List.replicate_succ, List.cons_append]
    by_cases backslash : c = '\\'
    · subst backslash
      exact .inl ⟨depth, .escape, Cursor.step_backslash (Cursor.unclaimed_stage _), .escape sets⟩
    by_cases opens : c = '['
    · subst opens
      exact .inl ⟨depth + 1, .setHead, Cursor.step_openSet (Cursor.unclaimed_stage _),
        .between .nothing (.inside sets .start)⟩
    by_cases closes : c = ']'
    · subst closes
      by_cases filled : stage = .contents
      · subst filled
        rcases sets.close with ⟨rfl, whole⟩ | ⟨outer, rfl, inner⟩
        · exact .inr ⟨whole, rfl⟩
        · exact .inl ⟨outer, .nothing, rfl, .between .contents inner⟩
      · exact .inl ⟨depth, .nothing, Cursor.step_literal_close filled,
          .between .contents (sets.add fun u hu => .literal hu filled)⟩
    by_cases negates : stage = .nothing ∧ c = '^'
    · obtain ⟨rfl, rfl⟩ := negates
      refine .inl ⟨depth, .negatedSetHead, rfl, .between .negation (sets.add fun u hu => ?_)⟩
      cases hu
      exact .negated
    · have plain : c ∉ ['\\', '[', ']'] := by simp [backslash, opens, closes]
      have first : stage = .nothing → c ≠ '^' := fun hs hc => negates ⟨hs, hc⟩
      exact .inl ⟨depth, .nothing, Cursor.step_setChar plain first,
        .between .contents (sets.add fun u hu => .char hu plain first)⟩

end SetRead

end TextMate.Regex
