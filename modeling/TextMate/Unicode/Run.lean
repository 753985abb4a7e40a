/-!
# Character tables

A character class is a list of runs of code points. A run may step by more than one, because
the cased blocks alternate between the two cases. Membership is a Boolean check on the code
point, so a table evaluates under `decide`.
-/

set_option autoImplicit false

namespace TextMate.Unicode

/-- The code points `first`, `first + stride`, and so on up to `last`. -/
structure Run where
  first : Nat
  last : Nat
  stride : Nat

/-- The run contains the code point `n`. -/
def Run.has (r : Run) (n : Nat) : Bool :=
  decide (r.first ≤ n) && decide (n ≤ r.last) && (n - r.first) % r.stride == 0

/-- Some run contains the code point of `c`. -/
def inRuns (rs : List Run) (c : Char) : Bool :=
  rs.any fun r => r.has c.toNat

theorem inRuns_iff {rs : List Run} {c : Char} :
    inRuns rs c = true ↔ ∃ r ∈ rs, r.has c.toNat = true := by
  simp [inRuns]

end TextMate.Unicode
