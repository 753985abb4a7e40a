import TextMate.Error

/-!
# Places in a grammar

Where a rule stands in the finished grammar, and computations that fail there. A `Placed`
computation learns its place from whoever runs it and reports it if it fails, so that the same
rule gives the same result wherever it stands.
-/

set_option autoImplicit false

namespace TextMate

/-- The regexes that a rule may have. -/
inductive RegexField where
  | whole
  | opening
  | closing
  deriving DecidableEq, Repr

namespace RegexField

def label : RegexField → String
  | whole => "match"
  | opening => "begin"
  | closing => "end"

/-- The label of the captures of a regex. -/
def capturesLabel : RegexField → String
  | whole => "captures"
  | opening => "beginCaptures"
  | closing => "endCaptures"

end RegexField

/-- The fields of a rule that may be wrong. -/
inductive Field where
  | regex (field : RegexField)
  | name
  | contentName
  deriving DecidableEq, Repr

def Field.label : Field → String
  | regex field => field.label
  | name => "name"
  | contentName => "contentName"

/-- One step from a rule, or from the grammar itself, to a rule inside it. -/
inductive Step where
  | pattern (i : Nat)
  | capture (field : RegexField) (group : Nat)
  | repository (name : String)
  deriving DecidableEq, Repr

def Step.text : Step → String
  | pattern i => "patterns[" ++ i.repr ++ "]"
  | capture field group => field.capturesLabel ++ "." ++ group.repr
  | repository name => "repository." ++ name

/-- The steps from the grammar to a rule. -/
abbrev Path := List Step

/-- The steps with dots between them. The grammar itself is the root. -/
def Path.text (path : Path) : String :=
  if path = [] then "<root>" else ".".intercalate (path.map Step.text)

/-- A fault, with the rule and the field in which it arose. -/
structure Failure where
  path : Path
  field : Field
  fault : Fault
  deriving DecidableEq, Repr

def Failure.toError (failure : Failure) : Error :=
  .inRule (Path.text failure.path) failure.field.label (.plain failure.fault)

/-- A computation that is told where it stands. -/
abbrev Placed (α : Type) := ReaderT Path (Except Failure) α

namespace Placed

variable {α : Type}

/-- Reports a fault in the field `field` of the rule at hand. -/
def inField (field : Field) (x : Except Fault α) : Placed α := fun path =>
  match x with
  | .ok a => .ok a
  | .error fault => .error ⟨path, field, fault⟩

/-- Runs `x` one step further in. -/
def under (step : Step) (x : Placed α) : Placed α := fun path =>
  x (path ++ [step])

/-- Runs rules that stand in a list, where the first has the index `i`. -/
def inListFrom (i : Nat) : List (Placed α) → Placed (List α)
  | [] => return []
  | x :: xs => return (← x.under (.pattern i)) :: (← inListFrom (i + 1) xs)

/-- Runs the rules of a list. -/
def inList (xs : List (Placed α)) : Placed (List α) :=
  inListFrom 0 xs

theorem inField_eq_ok_iff {field : Field} {x : Except Fault α} {path : Path} {a : α} :
    inField field x path = .ok a ↔ x = .ok a := by
  cases x <;> simp [inField]

theorem under_apply (step : Step) (x : Placed α) (path : Path) :
    x.under step path = x (path ++ [step]) := rfl

end Placed

end TextMate
