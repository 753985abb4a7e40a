import TextMate.Fragment
import TextMate.Regex.Quantifier

/-!
# The fragment of a pattern

A pattern becomes one fragment, from the leaves up. Parts are compiled from left to right, and the
first fault is the result.
-/

set_option autoImplicit false

namespace TextMate

/-- The regex of a pattern. Parentheses are added only where the text would be read differently
without them. -/
def Pattern.compile : Pattern → Except Fault Fragment
  | .leaf text => return .leaf text
  | .sequence first second => return (← first.compile).beside (← second.compile)
  | .alternation first second => return (← first.compile).either (← second.compile)
  | .repetition element min max => do
    let quantifier ← Regex.quantifier min max
    (← element.compile).repeated quantifier
  | .capture element name serial => return (← element.compile).inGroup ⟨serial, some name⟩
  | .look kind element => return (← element.compile).looked kind
  | .tag element scopes serial =>
    match element.untaggable?, element.target? with
    | some reason, _ => throw (.untaggable reason)
    | none, some id => return (← element.compile).highlight id scopes
    | none, none =>
      return ((← element.compile).inGroup ⟨serial, none⟩).highlight ⟨serial, none⟩ scopes

end TextMate
