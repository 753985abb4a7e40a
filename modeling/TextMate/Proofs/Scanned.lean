import TextMate.Proofs.Bounds
import TextMate.Proofs.Builds
import TextMate.Proofs.Composition
import TextMate.Proofs.Leaves

/-!
# Compiled regexes and their scan

A pattern whose leaves are self-contained compiles to a self-contained text, and a scan of that
text finds the precedence and the number of groups that the compiler wrote down (`scanned`). The
compiler asks for nothing else about a part, except where it is highlighted directly. So a part may
be replaced by its own text everywhere else.
-/

set_option autoImplicit false

namespace TextMate

open Regex (SelfContained IsQuantifier ScansAs isIntervalChar precedenceOf captureCountOf)

namespace Regex

theorem isIntervalChar_of_isDigit {c : Char} (h : c.isDigit = true) : isIntervalChar c = true := by
  have digit : Unicode.isAlphanumeric c = true := by
    refine Unicode.inRuns_iff.2 ⟨⟨48, 57, 1⟩, List.mem_cons_self, ?_⟩
    simp only [Char.isDigit, Bool.and_eq_true, decide_eq_true_eq] at h
    have low : 48 ≤ c.toNat := h.1
    have high : c.toNat ≤ 57 := h.2
    simp [Unicode.Run.has, low, high, Nat.mod_one]
  simp [isIntervalChar, isWordChar, digit]

section Quantifiers

variable {cs ds body : List Char} {n : Nat} {max : Option Nat}

theorem IsNumeral.isInterval (h : IsNumeral ds n) : ∀ c ∈ ds, isIntervalChar c = true :=
  fun c mem => isIntervalChar_of_isDigit (h.digits c mem)

theorem isQuantifier_inBraces (h : ∀ c ∈ body, isIntervalChar c = true) : IsQuantifier (inBraces body) :=
  Or.inr ⟨body, rfl, h⟩

theorem Repeats.isQuantifier (h : Repeats cs n max) : IsQuantifier cs := by
  have behind (es : List Char) (h : ∀ c ∈ es, isIntervalChar c = true) :
      ∀ c ∈ ',' :: es, isIntervalChar c = true :=
    List.forall_mem_cons.2 ⟨by decide +kernel, h⟩
  cases h with
  | star | plus | question => exact Or.inl (by decide)
  | exactly lower => exact isQuantifier_inBraces lower.isInterval
  | atLeast lower =>
    exact isQuantifier_inBraces (List.forall_mem_append.2 ⟨lower.isInterval, behind [] nofun⟩)
  | atMost upper => exact isQuantifier_inBraces (behind _ upper.isInterval)
  | between lower upper =>
    exact isQuantifier_inBraces (List.forall_mem_append.2 ⟨lower.isInterval, behind _ upper.isInterval⟩)

/-- What is written for the bounds of a repetition is a quantifier. -/
theorem isQuantifier_of_quantifier {min : Nat} {q : String} (h : quantifier min max = .ok q) :
    IsQuantifier q.toList :=
  (repeats_of_quantifier h).isQuantifier

end Quantifiers

end Regex

/-- A scan of the text of `f` agrees with what is written down about it. -/
structure Scanned (f : Fragment) : Prop where
  selfContained : SelfContained f.text.toList
  precedence : precedenceOf f.text.toList = f.precedence
  captureCount : captureCountOf f.text.toList = f.captureCount

namespace Scanned

variable {f g : Fragment}

open Regex (Precedence)

theorem leaf {text : String} (h : SelfContained text.toList) : Scanned (.leaf text) where
  selfContained := h
  precedence := rfl
  captureCount := by
    simp only [Fragment.leaf, Fragment.captureCount, List.length_replicate]
    rfl

theorem scansAs (h : Scanned f) : ScansAs f.text f.precedence f.captureCount :=
  ⟨h.selfContained, h.precedence, h.captureCount⟩

theorem of_scansAs (h : ScansAs f.text f.precedence f.captureCount) : Scanned f :=
  ⟨h.selfContained, h.precedence, h.captureCount⟩

theorem guarded (h : Scanned f) (least : Precedence) : Scanned (f.guarded least) := by
  unfold Fragment.guarded
  split
  · exact of_scansAs h.scansAs.guarded
  · exact h

theorem looked (h : Scanned f) (kind : Look) : Scanned (f.looked kind) :=
  of_scansAs (h.scansAs.looked kind)

/-- A highlight leaves the text alone. -/
theorem highlight (h : Scanned f) (id : CaptureId) (scopes : List Scope) :
    Scanned (f.highlight id scopes) :=
  ⟨h.selfContained, h.precedence, h.captureCount⟩

theorem inGroup (h : Scanned f) (id : CaptureId) : Scanned (f.inGroup id) :=
  of_scansAs h.scansAs.numbered

theorem toList_ne_nil {text : String} (h : text ≠ "") : text.toList ≠ [] :=
  fun empty => h (String.toList_eq_nil_iff.1 empty)

theorem captureCount_joined (f g : Fragment) (separator : String) (precedence : Precedence) :
    (f.joined g separator precedence).captureCount = f.captureCount + g.captureCount :=
  List.length_append

/-- Two texts in a row, neither an alternation. -/
theorem adjoined (hf : Scanned f) (hg : Scanned g) (tight : f.precedence ≠ .alternation)
    (tight' : g.precedence ≠ .alternation) : Scanned (f.adjoined g) := by
  have loosest : min f.precedence (min .sequence g.precedence) = .sequence := by
    revert tight tight'
    cases f.precedence <;> cases g.precedence <;> decide
  have text : (f.adjoined g).text = f.text ++ g.text := by simp [Fragment.adjoined, Fragment.joined]
  have row := hf.scansAs.append hg.scansAs
  rw [loosest, ← text, ← captureCount_joined] at row
  exact of_scansAs row

theorem precedence_guarded_ne (f : Fragment) : (f.guarded .sequence).precedence ≠ .alternation := by
  unfold Fragment.guarded
  split
  · nofun
  · next tight =>
    intro loose
    exact tight (by rw [loose]; decide)

theorem beside (hf : Scanned f) (hg : Scanned g) : Scanned (f.beside g) :=
  (hf.guarded _).adjoined (hg.guarded _) (precedence_guarded_ne f) (precedence_guarded_ne g)

theorem either (hf : Scanned f) (hg : Scanned g) : Scanned (f.either g) := by
  have choice := hf.scansAs.either hg.scansAs
  rw [← captureCount_joined] at choice
  exact of_scansAs choice

theorem quantified (hf : Scanned f) (nonempty : f.text ≠ "") (single : f.precedence = .atom)
    {q : String} (hq : IsQuantifier q.toList) : Scanned (f.quantified q) := by
  have behind := hf.scansAs.quantified nonempty hq
  rw [single] at behind
  exact of_scansAs behind

theorem precedence_guarded_atom (f : Fragment) : (f.guarded .atom).precedence = .atom := by
  unfold Fragment.guarded
  split
  · rfl
  · next tight =>
    revert tight
    cases f.precedence <;> decide

end Scanned

/-- The fragment of a pattern with self-contained leaves agrees with the scan of its text. -/
theorem scanned {p : Pattern} {f : Fragment} (h : Builds p f) (hp : p.SelfContained) : Scanned f := by
  induction h with
  | leaf text => exact .leaf (hp text (by simp [Pattern.leaves]))
  | sequence _ _ ihp ihq =>
    obtain ⟨hp, hq⟩ := Pattern.selfContained_sequence.1 hp
    exact (ihp hp).beside (ihq hq)
  | alternation _ _ ihp ihq =>
    obtain ⟨hp, hq⟩ := Pattern.selfContained_alternation.1 hp
    exact (ihp hp).either (ihq hq)
  | repetition hq nonempty _ ih =>
    exact ((ih hp).guarded .atom).quantified nonempty (Scanned.precedence_guarded_atom _)
      (Regex.isQuantifier_of_quantifier hq)
  | capture name serial _ ih => exact (ih hp).inGroup _
  | look kind _ ih => exact (ih hp).looked kind
  | tag scopes serial _ _ ih => exact (ih hp).highlight _ scopes
  | tagged scopes serial _ _ _ ih => exact ((ih hp).inGroup _).highlight _ scopes

end TextMate
