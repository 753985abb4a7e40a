import TextMate.Proofs.Lexemes
import TextMate.Proofs.Wrapping

/-!
# The two readings of braces

Whether a brace is read as an interval or as a literal makes a difference only for what stands between it
and the next closing brace: one reading passes over it, the other does not. Where nothing is escaped,
opened or closed in there, both readings are in the same place behind every part of the text
(`PlainBraces.after`), but for the interval itself.
-/

set_option autoImplicit false

namespace TextMate.Regex

/-- What comes behind a brace satisfies `p`, for every brace of `cs` that is neither escaped nor in a set.
-/
def AtBraces (p : List Char → Prop) (cs : List Char) : Prop :=
  ∀ before behind, cs = before ++ '{' :: behind → Lexed .literal before → p behind

/-- What comes behind a brace up to the next closing one. -/
def interior (behind : List Char) : List Char :=
  behind.takeWhile (· ≠ '}')

/-- Nothing between braces opens, closes or escapes anything. -/
def PlainBraces : List Char → Prop :=
  AtBraces fun behind => (interior behind).all (· ∉ structural) = true

/-- Every brace is closed, and only the characters of an interval stand in between. -/
def ClosedBraces : List Char → Prop :=
  AtBraces fun behind => '}' ∈ behind ∧ (interior behind).all isIntervalChar = true

section Decidable

variable {cs : List Char}

/-- The braces of a text can be tried one after the other. -/
theorem atBraces_iff {p : List Char → Prop} :
    AtBraces p cs ↔ ∀ i < cs.length, cs[i]? = some '{' → Lexed .literal (cs.take i) →
      p (cs.drop (i + 1)) := by
  constructor
  · intro h i lt brace
    refine h _ _ ?_
    rw [← List.getElem?_eq_some_iff.1 brace |>.2, List.getElem_cons_drop, List.take_append_drop]
  · rintro h before behind rfl lexed
    have holds := h before.length (by simp) (by simp) (by simpa using lexed)
    rwa [List.drop_length_add_append] at holds

instance {p : List Char → Prop} [DecidablePred p] : Decidable (AtBraces p cs) :=
  decidable_of_iff _ (atBraces_iff (p := p)).symm

instance : Decidable (PlainBraces cs) :=
  inferInstanceAs (Decidable (AtBraces (fun _ => _ = true) cs))

instance : Decidable (ClosedBraces cs) :=
  inferInstanceAs (Decidable (AtBraces (fun _ => _ ∧ _) cs))

end Decidable

/-- What stands before the next closing brace is between the braces. -/
theorem mem_interior {body : List Char} (unclosed : '}' ∉ body) (rest : List Char) {c : Char}
    (h : c ∈ body) : c ∈ interior (body ++ rest) := by
  have inside : ∀ d ∈ body, decide (d ≠ '}') = true := by
    intro d hd
    refine decide_eq_true ?_
    rintro rfl
    exact unclosed hd
  rw [interior, List.takeWhile_append_of_pos inside]
  exact List.mem_append_left _ h

/-- Characters that open and escape nothing are read one by one. -/
theorem Lexed.plain {cs us : List Char} (h : Lexed .literal cs) (plain : ∀ c ∈ us, c ∉ structural) :
    Lexed .literal (cs ++ us) := by
  induction us using List.reverseRecOn with
  | nil => rwa [List.append_nil]
  | append_singleton us c ih =>
    have last : c ∉ structural := plain c (by simp)
    have opens : c ∉ ['\\', '['] := by
      simp only [structural, List.mem_cons, List.not_mem_nil, or_false, not_or] at last ⊢
      exact ⟨last.1, last.2.2.2⟩
    rw [← List.append_assoc]
    exact (ih fun d hd => plain d (List.mem_append_left _ hd)).char opens (by simp)

theorem ClosedBraces.plain {cs : List Char} (h : ClosedBraces cs) : PlainBraces cs := by
  intro before behind split lexed
  have inner := (h before behind split lexed).2
  simp only [List.all_eq_true, decide_eq_true_eq] at inner ⊢
  exact fun c hc => not_structural (inner c hc)

namespace PlainBraces

variable {before behind : List Char} {c : Char}

theorem not_structural {body : List Char} (h : PlainBraces (before ++ '{' :: (body ++ behind)))
    (whole : Lexed .literal before) (unclosed : '}' ∉ body) : ∀ c ∈ body, c ∉ structural := by
  intro c hc
  have inner := List.all_eq_true.1 (h before (body ++ behind) rfl whole)
  exact of_decide_eq_true (inner c (mem_interior unclosed behind hc))

/-- What is whole with intervals in it is whole if their braces are literals. -/
theorem lexed (h : PlainBraces (before ++ behind)) (whole : Lexed .interval before) :
    Lexed .literal before := by
  induction whole generalizing behind with
  | nil => exact .nil
  | char _ opens _ ih =>
    rw [List.append_assoc] at h
    exact (ih h).char opens (by simp)
  | escape c _ ih =>
    rw [List.append_assoc] at h
    exact (ih h).escape c
  | set _ set ih =>
    rw [List.append_assoc] at h
    exact (ih h).set set
  | @interval cs body _ _ unclosed ih =>
    simp only [List.append_assoc, List.cons_append] at h
    have inner := h.not_structural (ih h) unclosed
    refine (ih h).plain fun c hc => ?_
    simp only [List.mem_cons, List.mem_append, List.not_mem_nil, or_false] at hc
    rcases hc with rfl | hc | rfl
    · decide
    · exact inner c hc
    · decide

/-- An interval goes on with a character that opens, closes and escapes nothing. -/
theorem not_structural_of_interval (h : PlainBraces (before ++ c :: behind))
    (interval : (Cursor.top.after .interval before).pending = .interval) : c ∉ structural := by
  obtain ⟨front, body, rfl, whole, unclosed⟩ := exists_openBrace interval
  by_cases brace : c = '}'
  · subst brace
    decide
  · have split : front ++ '{' :: body ++ c :: behind = front ++ '{' :: ((body ++ [c]) ++ behind) := by
      simp
    rw [split] at h
    have unclosed' : '}' ∉ body ++ [c] := by simp [unclosed, Ne.symm brace]
    exact h.not_structural (h.lexed whole) unclosed' c (by simp)

/-- Both readings open and close the same brackets, and they are escaped and in a set together. -/
theorem after (h : PlainBraces (before ++ behind)) :
    Cursor.top.after .literal before = (Cursor.top.after .interval before).asLiteral ∧
      (Cursor.top.after .interval before).Sound := by
  induction before using List.reverseRecOn generalizing behind with
  | nil => exact ⟨rfl, Cursor.sound_of_ne (by decide)⟩
  | append_singleton before c ih =>
    rw [List.append_assoc, List.singleton_append] at h
    obtain ⟨same, sound⟩ := ih h
    -- The readings differ only in an interval, and there the next character does nothing in either of them.
    rw [Cursor.after_append, Cursor.after_append, same]
    exact Cursor.step_literal sound h.not_structural_of_interval

/-- Before a character that opens or closes something, what is whole in one reading is whole in the other
one. -/
theorem lexed_iff (h : PlainBraces (before ++ c :: behind)) (opens : c ∈ structural) :
    Lexed .interval before ↔ Lexed .literal before := by
  refine ⟨h.lexed, fun whole => ?_⟩
  have outside : (Cursor.top.after .interval before).pending ≠ .interval := fun interval =>
    h.not_structural_of_interval interval opens
  rw [Regex.lexed_iff, h.after.1, Cursor.asLiteral_of_ne outside] at whole
  exact Regex.lexed_iff.2 whole

end PlainBraces

end TextMate.Regex
