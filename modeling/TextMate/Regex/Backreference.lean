/-!
# References to numbered groups

A regex refers to a group by a backslash and a digit from 1 to 9. Escapes come in pairs, so the
digit after an escaped backslash is an ordinary character.
-/

set_option autoImplicit false

namespace TextMate.Regex

def hasBackreferenceIn : List Char → Bool
  | '\\' :: c :: rest => decide ('1' ≤ c ∧ c ≤ '9') || hasBackreferenceIn rest
  | _ :: rest => hasBackreferenceIn rest
  | [] => false

/-- Some escape of `text` is a digit from 1 to 9. -/
def hasBackreference (text : String) : Bool :=
  hasBackreferenceIn text.toList

end TextMate.Regex
