/-!
# Literal texts

A text is made literal by a backslash before each character that a regex could read as an
operator. The rule looks at one character at a time, so escaping distributes over two texts in a
row (`escape_append`).
-/

set_option autoImplicit false

namespace TextMate.Regex

/-- The characters with a meaning of their own. -/
def isOperator (c : Char) : Bool :=
  c ∈ ['\\', '^', '$', '.', '|', '?', '*', '+', '(', ')', '[', ']', '{', '}']

def escapeChar (c : Char) : List Char :=
  if isOperator c then ['\\', c] else [c]

def escapeChars (cs : List Char) : List Char :=
  cs.flatMap escapeChar

/-- A regex that matches `text` and nothing else. -/
def escape (text : String) : String :=
  String.ofList (escapeChars text.toList)

/-- An operator becomes a pair, and any other character stands for itself. -/
theorem escapeChar_cases (c : Char) :
    isOperator c = true ∧ escapeChar c = ['\\', c] ∨ isOperator c = false ∧ escapeChar c = [c] := by
  cases op : isOperator c with
  | true => exact .inl ⟨rfl, if_pos op⟩
  | false => exact .inr ⟨rfl, if_neg (by simp [op])⟩

theorem ne_of_not_isOperator {c d : Char} (h : isOperator c = false) (hd : isOperator d = true) : c ≠ d := by
  rintro rfl
  exact absurd hd (by simp [h])

theorem escapeChars_cons (c : Char) (cs : List Char) :
    escapeChars (c :: cs) = escapeChar c ++ escapeChars cs :=
  List.flatMap_cons

theorem escape_append (s t : String) : escape (s ++ t) = escape s ++ escape t := by
  rw [← String.toList_inj]
  simp [escape, escapeChars]

end TextMate.Regex
