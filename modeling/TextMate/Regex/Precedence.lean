/-!
# Precedence of regexes

The loosest operator that no bracket guards decides how a regex may be put next to another one.
The four classes are ordered from the loosest to the tightest.
-/

set_option autoImplicit false

namespace TextMate.Regex

inductive Precedence where
  /-- A `|` at the top level. -/
  | alternation
  /-- Several atoms in a row. -/
  | sequence
  /-- One atom under a quantifier. -/
  | quantified
  /-- One character, escape, set or group. -/
  | atom
  deriving DecidableEq, Repr, Inhabited

namespace Precedence

/-- The place of a class in the order. -/
def rank : Precedence → Nat
  | alternation => 0
  | sequence => 1
  | quantified => 2
  | atom => 3

instance : LT Precedence := ⟨fun p q => p.rank < q.rank⟩

instance : LE Precedence := ⟨fun p q => p.rank ≤ q.rank⟩

instance (p q : Precedence) : Decidable (p < q) := inferInstanceAs (Decidable (p.rank < q.rank))

instance (p q : Precedence) : Decidable (p ≤ q) := inferInstanceAs (Decidable (p.rank ≤ q.rank))

instance : Min Precedence := minOfLe

theorem rank_inj {p q : Precedence} (h : p.rank = q.rank) : p = q := by
  cases p <;> cases q <;> simp_all [rank]

@[simp] theorem atom_min (p : Precedence) : min atom p = p := by
  cases p <;> rfl

theorem min_assoc (p q r : Precedence) : min (min p q) r = min p (min q r) := by
  cases p <;> cases q <;> cases r <;> rfl

theorem min_comm (p q : Precedence) : min p q = min q p := by
  cases p <;> cases q <;> rfl

end Precedence

end TextMate.Regex
