import TextMate.Proofs.Nesting

/-!
# Blank patterns

A pattern compiles to the empty text exactly if it is a row of empty leaves (`text_eq_empty_iff`). Between
two parts of a row such a pattern makes no difference, but a choice is guarded even if there is nothing
else beside it (`besideNothing`). Whether there is something to repeat is seen by the text, so no blank
pattern can be repeated. Whether there is something to highlight is seen by the outermost node, so of the
blank patterns only the empty leaf is refused (`refusals_of_compile`).
-/

set_option autoImplicit false

namespace TextMate

namespace Fragment

variable {f : Fragment}

/-- A guard has a text of its own. -/
theorem text_of_guarded {least : Regex.Precedence} (h : (f.guarded least).text = "") : f.text = "" := by
  unfold guarded at h
  split at h
  · simp at h
  · exact h

theorem leaf_empty : leaf "" = ⟨"", .atom, [], [], []⟩ := rfl

theorem guarded_leaf_empty (least : Regex.Precedence) : (leaf "").guarded least = leaf "" := by
  cases least <;> rfl

/-- The precedence is the other side's, unless that side is empty as well. -/
theorem adjoined_leaf_empty (atom : f.text = "" → f.precedence = .atom) :
    f.adjoined (leaf "") = f := by
  have precedence : (if f.text = "" then .atom else f.precedence) = f.precedence := by
    split
    · next empty => exact (atom empty).symm
    · rfl
  rw [Fragment.mk.injEq, leaf_empty]
  simpa [adjoined, joined] using precedence

theorem leaf_empty_adjoined (f : Fragment) : (leaf "").adjoined f = f := by
  simp [leaf_empty, adjoined, joined]

theorem guarded_sequence_eq_iff : f.guarded .sequence = f ↔ f.precedence ≠ .alternation := by
  refine ⟨fun same choice => ?_, guarded_of_ne⟩
  have atom : (f.guarded .sequence).precedence = .atom := by
    rw [guarded, choice]
    rfl
  rw [same, choice] at atom
  cases atom

/-- Beside an empty leaf a fragment is guarded as in any row. -/
theorem beside_leaf_empty (empty : f.text = "" → f = leaf "") :
    f.beside (leaf "") = f.guarded .sequence := by
  rw [beside, guarded_leaf_empty]
  refine adjoined_leaf_empty fun none => ?_
  rw [empty (text_of_guarded none)]
  rfl

theorem leaf_empty_beside (f : Fragment) : (leaf "").beside f = f.guarded .sequence := by
  rw [beside, guarded_leaf_empty, leaf_empty_adjoined]

end Fragment

namespace Pattern

/-- A row of empty leaves. -/
def IsBlank (p : Pattern) : Prop :=
  ∀ q ∈ Joint.row.parts p, q = leaf ""

instance (p : Pattern) : Decidable p.IsBlank :=
  inferInstanceAs (Decidable (∀ q ∈ Joint.row.parts p, q = leaf ""))

variable {p q : Pattern} {f g : Fragment} {fault : Fault}

theorem compile_sequence (p q : Pattern) :
    (sequence p q).compile = together .beside p.compile q.compile := rfl

theorem isBlank_sequence : (sequence p q).IsBlank ↔ p.IsBlank ∧ q.IsBlank :=
  List.forall_mem_append

theorem compile_of_isBlank (blank : p.IsBlank) : p.compile = .ok (.leaf "") := by
  induction p with
  | leaf text =>
    cases blank _ List.mem_cons_self
    rfl
  | sequence p q ihp ihq =>
    obtain ⟨hp, hq⟩ := isBlank_sequence.1 blank
    rw [compile_sequence, ihp hp, ihq hq]
    rfl
  | _ => cases blank _ List.mem_cons_self

/-- Only empty leaves have no text, and only rows of them. -/
theorem isBlank_of_text (h : Builds p f) (empty : f.text = "") : p.IsBlank := by
  induction h with
  | leaf text =>
    intro q mem
    rw [List.mem_singleton.1 mem]
    exact congrArg leaf empty
  | @sequence p q f g _ _ ihp ihq =>
    have both : (f.guarded .sequence).text = "" ∧ (g.guarded .sequence).text = "" := by
      simpa [Fragment.beside, Fragment.adjoined, Fragment.joined] using empty
    exact isBlank_sequence.2 ⟨ihp (Fragment.text_of_guarded both.1), ihq (Fragment.text_of_guarded both.2)⟩
  | alternation => simp [Fragment.either, Fragment.joined] at empty
  | repetition _ nonempty => exact absurd (String.append_eq_empty_iff.1 empty).1 nonempty
  | capture => simp [Fragment.inGroup] at empty
  | look => simp [Fragment.looked] at empty
  | @tag p _ _ _ _ target _ ih =>
    -- What a highlight can belong to is no leaf and no row.
    have blank := ih empty
    cases p with
    | capture => cases blank _ List.mem_cons_self
    | tag => cases blank _ List.mem_cons_self
    | _ => cases target
  | tagged => simp [Fragment.highlight, Fragment.inGroup] at empty

theorem text_eq_empty_iff (h : Builds p f) : f.text = "" ↔ p.IsBlank := by
  refine ⟨isBlank_of_text h, fun blank => ?_⟩
  have same := (compile_of_builds h).symm.trans (compile_of_isBlank blank)
  rw [Except.ok.inj same]
  rfl

/-- Nothing but the text is left of a blank pattern, and that is empty. -/
theorem eq_leaf_of_text (h : Builds p f) (empty : f.text = "") : f = .leaf "" :=
  Except.ok.inj ((compile_of_builds h).symm.trans (compile_of_isBlank (isBlank_of_text h empty)))

/-- What the empty row does beside a pattern. -/
structure BesideNothing (p : Pattern) : Prop where
  /-- On either side of it the pattern compiles as a part of any row does. -/
  front : (sequence (inOrder []) p).compile = p.compile.map (Fragment.guarded .sequence)
  behind : (sequence p (inOrder [])).compile = p.compile.map (Fragment.guarded .sequence)
  /-- So nothing changes, be it a fault or a regex, exactly if the pattern is no choice. -/
  neutral : (sequence (inOrder []) p).compile = p.compile ∧
      (sequence p (inOrder [])).compile = p.compile ↔
    ∀ f, p.compile = .ok f → f.precedence ≠ .alternation
  /-- A choice is put between parentheses, and all but its text and its precedence stays. -/
  choice : ∀ f, p.compile = .ok f → f.precedence = .alternation →
    (sequence p (inOrder [])).compile =
      .ok { f with text := "(?:" ++ f.text ++ ")", precedence := .atom }
  /-- In front of another part nothing changes in any case. -/
  between : ∀ q, (sequence p (sequence (inOrder []) q)).compile = (sequence p q).compile

theorem compile_front (p : Pattern) :
    (sequence (inOrder []) p).compile = p.compile.map (Fragment.guarded .sequence) := by
  rw [compile_sequence]
  cases p.compile with
  | error fault => rfl
  | ok f => exact congrArg Except.ok f.leaf_empty_beside

theorem compile_behind (p : Pattern) :
    (sequence p (inOrder [])).compile = p.compile.map (Fragment.guarded .sequence) := by
  rw [compile_sequence]
  cases compiled : p.compile with
  | error fault => rfl
  | ok f =>
    have built := builds_of_compile compiled
    exact congrArg Except.ok (Fragment.beside_leaf_empty (eq_leaf_of_text built))

/-- The empty row is neutral in a row, but alone beside a choice it leaves a guard. -/
theorem besideNothing (p : Pattern) : BesideNothing p := by
  refine ⟨p.compile_front, p.compile_behind, ?_, ?_, ?_⟩
  · rw [compile_front, compile_behind, and_self]
    cases p.compile with
    | error fault => exact iff_of_true rfl nofun
    | ok f =>
      have same : Except.map (Fragment.guarded .sequence) (.ok f : Except Fault Fragment) = .ok f ↔
          f.guarded .sequence = f := ⟨fun h => Except.ok.inj h, fun h => congrArg Except.ok h⟩
      rw [same, Fragment.guarded_sequence_eq_iff]
      simp
  · intro f compiled choice
    rw [compile_behind, compiled]
    have loose : f.precedence < .sequence := by rw [choice]; decide
    exact congrArg Except.ok (if_pos loose)
  · intro q
    rw [compile_sequence, compile_front, compile_sequence]
    cases q.compile with
    | error fault => rfl
    | ok g =>
      have twice : (g.guarded .sequence).guarded .sequence = g.guarded .sequence :=
        Fragment.guarded_of_ne (Scanned.precedence_guarded_ne g)
      have same (f : Fragment) : f.beside (g.guarded .sequence) = f.beside g :=
        congrArg (f.guarded .sequence).adjoined twice
      cases p.compile with
      | error fault => rfl
      | ok f => exact congrArg Except.ok (same f)

/-- A choice does not come out of a row with nothing else in it as it went in. -/
theorem guarded_besideNothing :
    ¬ ∀ p : Pattern, (sequence p (inOrder [])).compile = p.compile ∧
      (sequence (inOrder []) p).compile = p.compile := by
  intro neutral
  have alone : (leaf "a|b").compile = .ok ⟨"a|b", .alternation, [], [], []⟩ := by rfl
  have inRow : (sequence (leaf "a|b") (inOrder [])).compile =
      .ok ⟨"(?:a|b)", .atom, [], [], []⟩ := by rfl
  have same := (neutral (leaf "a|b")).1
  rw [alone, inRow] at same
  simp at same

/-- What is refused if the pattern `p`, which compiles to `f`, is repeated or highlighted. -/
structure Refusals (p : Pattern) (f : Fragment) : Prop where
  /-- The pattern has no text exactly if it is a row of empty leaves. -/
  blank : f.text = "" ↔ p.IsBlank
  /-- Bounds in order given, a repetition fails exactly if there is no text, and it says so. -/
  repetition : ∀ min max fault, (∀ m, max = some m → min ≤ m) →
    ((repetition p min max).compile = .error fault ↔ f.text = "" ∧ fault = .emptyRepetition)
  /-- A highlight fails exactly on an assertion and on the empty leaf, and it says which it is. -/
  highlight : ∀ scopes serial fault, (tag p scopes serial).compile = .error fault ↔
    (∃ kind q, p = look kind q) ∧ fault = .untaggable "lookarounds are zero-width" ∨
      p = leaf "" ∧ fault = .untaggable "the pattern is empty"
  /-- A longer row of empty leaves gets a group around nothing. -/
  hollow : f.text = "" → p ≠ leaf "" → ∀ scopes serial, (tag p scopes serial).compile =
    .ok ⟨"()", .atom, [some ⟨serial, none⟩], [], [(⟨serial, none⟩, scopes)]⟩

theorem repetition_eq_error_iff (h : p.compile = .ok f) {min : Nat} {max : Option Nat}
    (bounds : ∀ m, max = some m → min ≤ m) :
    (repetition p min max).compile = .error fault ↔ f.text = "" ∧ fault = .emptyRepetition := by
  have text : (f.guarded .atom).text = "" ↔ f.text = "" := by
    refine ⟨Fragment.text_of_guarded, fun empty => ?_⟩
    rw [eq_leaf_of_text (builds_of_compile h) empty, Fragment.guarded_leaf_empty]
    rfl
  cases quantified : Regex.quantifier min max with
  | error inverted =>
    obtain ⟨m, limit, less, -⟩ := Regex.quantifier_eq_error_iff.1 quantified
    exact absurd less (Nat.not_lt.2 (bounds m limit))
  | ok q =>
    have compiled : (repetition p min max).compile = f.repeated q := by
      rw [compile, quantified, h]
      rfl
    rw [compiled, Fragment.repeated, ← text]
    split
    · next empty => simp [empty, eq_comm]
    · next nonempty => simp [nonempty]

/-- Why a highlight is refused is known from the outermost node. -/
theorem untaggable?_eq_some_iff {reason : String} :
    p.untaggable? = some reason ↔
      (∃ kind q, p = look kind q) ∧ reason = "lookarounds are zero-width" ∨
        p = leaf "" ∧ reason = "the pattern is empty" := by
  cases p with
  | leaf text => simp [untaggable?, eq_comm]
  | look kind q => simp [untaggable?, eq_comm]
  | _ => simp [untaggable?]

theorem tag_eq_error_iff (h : p.compile = .ok f) {scopes : List Scope} {serial : Nat} :
    (tag p scopes serial).compile = .error fault ↔
      ∃ reason, p.untaggable? = some reason ∧ fault = .untaggable reason := by
  rw [compile]
  split
  · next reason _ refused => simp [refused, throw, throwThe, MonadExceptOf.throw, eq_comm]
  · next taggable _ => simp [taggable, h, bind, Except.bind, pure, Except.pure]
  · next taggable _ => simp [taggable, h, bind, Except.bind, pure, Except.pure]

/-- A repetition refuses all blank patterns and a highlight only one of them. -/
theorem refusals_of_compile (h : p.compile = .ok f) : Refusals p f := by
  have built := builds_of_compile h
  refine ⟨text_eq_empty_iff built, fun min max fault => repetition_eq_error_iff h, ?_, ?_⟩
  · intro scopes serial fault
    rw [tag_eq_error_iff h]
    simp only [untaggable?_eq_some_iff]
    grind
  · intro empty other scopes serial
    have blank := isBlank_of_text built empty
    cases p with
    | leaf text => exact absurd (blank _ List.mem_cons_self) other
    | sequence p q =>
      rw [compile_of_builds (.tagged scopes serial rfl rfl built), eq_leaf_of_text built empty]
      rfl
    | _ => cases blank _ List.mem_cons_self

theorem refusals_of_compile_twoEmptyLeaves :
    (sequence (leaf "") (leaf "")).compile = .ok (.leaf "") ∧
      Refusals (sequence (leaf "") (leaf "")) (.leaf "") :=
  have compiled : (sequence (leaf "") (leaf "")).compile = .ok (.leaf "") := by rfl
  ⟨compiled, refusals_of_compile compiled⟩

/-- A highlight is not refused wherever there is nothing to highlight. -/
theorem tagged_twoEmptyLeaves :
    ¬ ∀ (p : Pattern) (f : Fragment), p.compile = .ok f → p.target? = none →
      ∀ scopes serial, (∃ reason, (tag p scopes serial).compile = .error (.untaggable reason)) ↔
        (∃ kind q, p = look kind q) ∨ f.text = "" := by
  intro refused
  have compiled : (sequence (leaf "") (leaf "")).compile = .ok (.leaf "") := by rfl
  have tagged : (tag (sequence (leaf "") (leaf "")) [] 0).compile =
      .ok ⟨"()", .atom, [some ⟨0, none⟩], [], [(⟨0, none⟩, [])]⟩ := by rfl
  obtain ⟨reason, error⟩ := (refused _ _ compiled rfl [] 0).2 (.inr rfl)
  rw [tagged] at error
  cases error

end Pattern

end TextMate
