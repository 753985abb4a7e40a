import TextMate.Error
import TextMate.Text.Trim

/-!
# Scopes

A scope is the generic part of a scope name, such as `comment.line.double-slash`. A grammar
appends its own last segment. Scopes are compared by their text as it was given, blanks included;
only the qualified name is trimmed.
-/

set_option autoImplicit false

namespace TextMate

/-- A highlighting category. -/
structure Scope where
  text : String
  deriving DecidableEq, Repr, Inhabited

namespace Scope

instance : ToString Scope := ⟨text⟩

instance : LT Scope := ⟨fun s t => s.text < t.text⟩

instance : LE Scope := ⟨fun s t => s.text ≤ t.text⟩

instance (s t : Scope) : Decidable (s < t) := inferInstanceAs (Decidable (s.text < t.text))

instance (s t : Scope) : Decidable (s ≤ t) := inferInstanceAs (Decidable (s.text ≤ t.text))

/-- The scope as it is shown to a reader of a log. The text is not escaped. -/
def describe (s : Scope) : String :=
  "Scope(\"" ++ s.text ++ "\")"

/-- The trimmed text followed by the last segment of the grammar's scope name. -/
def qualify (s : Scope) (grammar : String) : Except Fault String :=
  if Text.trim s.text = "" then .error .emptyScope else .ok (Text.trim s.text ++ "." ++ grammar)

theorem qualify_eq_error_iff {s : Scope} {grammar : String} {fault : Fault} :
    s.qualify grammar = .error fault ↔ fault = .emptyScope ∧ Text.trim s.text = "" := by
  unfold qualify
  by_cases h : Text.trim s.text = "" <;> simp [h, eq_comm]

theorem qualify_eq_ok_iff {s : Scope} {grammar name : String} :
    s.qualify grammar = .ok name ↔
      Text.trim s.text ≠ "" ∧ name = Text.trim s.text ++ "." ++ grammar := by
  unfold qualify
  by_cases h : Text.trim s.text = "" <;> simp [h, eq_comm]

end Scope

end TextMate
