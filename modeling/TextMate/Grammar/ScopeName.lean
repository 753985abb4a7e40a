import TextMate.Grammar
import TextMate.Text.Kebab
import TextMate.Text.Trim

/-!
# The scope name of a grammar

The last segment of a grammar's scope name is appended to every scope of the grammar. It is given
outright, with or without its first segment, or derived from the name of the grammar. It must be
a single segment.
-/

set_option autoImplicit false

namespace TextMate

open Unicode

/-- The first segment of a grammar's scope name, with its dot. -/
def rootSegment : String := "source."

/-- `text` without `rootSegment` in front. -/
def dropRootSegment (text : String) : String :=
  match rootSegment.toList.isPrefixOf? text.toList with
  | some rest => String.ofList rest
  | none => text

/-- The text holds a dot or a blank. -/
def hasSeveralSegments (text : String) : Bool :=
  text.toList.any fun c => c == '.' || isBlank c

namespace Grammar

/-- The last segment before it is checked. -/
def uncheckedSegment (g : Grammar) : String :=
  match g.scopeName with
  | some given => dropRootSegment (Text.trim given)
  | none => Text.kebab g.name

/-- The last segment of the scope name. -/
def segment (g : Grammar) : Except Fault String :=
  if g.uncheckedSegment = "" then .error (.badScopeName g.name "the scope name is empty")
  else if hasSeveralSegments g.uncheckedSegment then
    .error (.badScopeName g.name "the scope name must be a single segment")
  else .ok g.uncheckedSegment

theorem segment_eq_ok_iff {g : Grammar} {s : String} :
    g.segment = .ok s ↔
      g.uncheckedSegment = s ∧ s ≠ "" ∧ ∀ c ∈ s.toList, c ≠ '.' ∧ isBlank c = false := by
  have single : hasSeveralSegments g.uncheckedSegment = false ↔
      ∀ c ∈ g.uncheckedSegment.toList, c ≠ '.' ∧ isBlank c = false := by
    simp [hasSeveralSegments, List.any_eq_false]
  unfold Grammar.segment
  by_cases empty : g.uncheckedSegment = ""
  · rw [if_pos empty]
    exact iff_of_false nofun fun h => h.2.1 (h.1 ▸ empty)
  rw [if_neg empty]
  cases several : hasSeveralSegments g.uncheckedSegment with
  | true =>
    refine iff_of_false nofun fun h => ?_
    obtain ⟨rfl, -, solid⟩ := h
    exact Bool.false_ne_true ((single.2 solid).symm.trans several)
  | false =>
    constructor
    · intro ok
      cases ok
      exact ⟨rfl, empty, single.1 several⟩
    · rintro ⟨rfl, -, -⟩
      rfl

end Grammar

end TextMate
