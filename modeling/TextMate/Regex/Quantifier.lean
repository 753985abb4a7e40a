import TextMate.Error

/-!
# Quantifiers

The shortest quantifier for a lower and an optional upper bound. It fails exactly if the upper
bound is below the lower one (`quantifier_eq_error_iff`).
-/

set_option autoImplicit false

namespace TextMate.Regex

def braced (body : String) : String :=
  "\x7b" ++ body ++ "\x7d"

/-- The text after an atom that repeats it at least `min` and at most `max` times. Without `max`
there is no upper bound. -/
def quantifier (min : Nat) (max : Option Nat) : Except Fault String :=
  match max with
  | none =>
    .ok (if min = 0 then "*" else if min = 1 then "+" else braced (min.repr ++ ","))
  | some max =>
    if max < min then .error (.invertedBounds min max)
    else if min = max then .ok (braced min.repr)
    else if min = 0 then .ok (if max = 1 then "?" else braced ("," ++ max.repr))
    else .ok (braced (min.repr ++ "," ++ max.repr))

theorem quantifier_eq_error_iff {min : Nat} {max : Option Nat} {fault : Fault} :
    quantifier min max = .error fault ↔
      ∃ m, max = some m ∧ m < min ∧ fault = .invertedBounds min m := by
  cases max with
  | none => simp [quantifier]
  | some m =>
    by_cases h : m < min
    · simp [quantifier, h, eq_comm]
    · simp only [quantifier, if_neg h]
      grind

end TextMate.Regex
