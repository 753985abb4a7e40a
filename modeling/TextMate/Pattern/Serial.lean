import TextMate.Pattern

/-!
# Serial numbers

Every capture and every highlight takes the next number of a supply when it is made, so that no
two nodes have the same identity. A node that is used twice keeps its number.
-/

set_option autoImplicit false

namespace TextMate

/-- A construction that may take serial numbers. The state is the next free number. -/
abbrev Numbered := StateM Nat

/-- Takes the next serial number. -/
def Numbered.next : Numbered Nat :=
  modifyGet fun n => (n, n + 1)

namespace Pattern

/-- A new capture called `name`. -/
def named (element : Pattern) (name : String) : Numbered Pattern :=
  return capture element name (← Numbered.next)

/-- Highlights whatever `element` matches with all of `scopes`. -/
def tags (element : Pattern) (scopes : List Scope) : Numbered Pattern :=
  return tag element scopes (← Numbered.next)

end Pattern

end TextMate
