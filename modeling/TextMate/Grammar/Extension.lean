import TextMate.Text.Trim

/-!
# File extensions

An extension may be given with blanks around it and with leading dots. The blanks are removed
first and the dots second, each once.
-/

set_option autoImplicit false

namespace TextMate

/-- An extension without the blanks around it and without leading dots. -/
def normalExtension (extension : String) : String :=
  String.ofList ((Text.trim extension).toList.dropWhile (· == '.'))

/-- The extensions with something left once they are normalised. -/
def normalExtensions (extensions : List String) : List String :=
  (extensions.map normalExtension).filter (· ≠ "")

theorem ne_empty_of_mem_normalExtensions {es : List String} {e : String}
    (h : e ∈ normalExtensions es) : e ≠ "" := by
  simpa using (List.mem_filter.1 h).2

end TextMate
