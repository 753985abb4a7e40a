import TextMate.GroupStyle.Elision
import TextMate.Pattern.Fragment
import TextMate.Place
import TextMate.Rule

/-!
# The rule of a mode

A mode becomes one rule, and the modes inside it become the rules inside that one. The result is
a `Placed` computation: the place only shows in a failure. The rules declared for a capture are
compiled once under each of its groups.
-/

set_option autoImplicit false

namespace TextMate

/-- A scope of the rule at hand with the grammar's last segment. -/
def qualified (grammar : String) (field : Field) (scope : Scope) : Placed String :=
  Placed.inField field (scope.qualify grammar)

/-- An optional scope of the rule at hand. -/
def qualified? (grammar : String) (field : Field) : Option Scope → Placed (Option String)
  | none => return none
  | some scope => return some (← qualified grammar field scope)

/-- Several scope names are written as one, with a space between them. -/
def joinNames : List String → Option String
  | [] => none
  | names => some (" ".intercalate names)

/-- The finished style of the group `group`. -/
def captureRule (grammar : String) (field : RegexField) (group : Nat)
    (style : GroupStyle (Placed Rule)) : Placed (CaptureRule Rule) := do
  let names ← style.scopes.mapM (qualified grammar (.regex field))
  let patterns ← (Placed.inList style.patterns).under (.capture field group)
  return ⟨joinNames names, patterns⟩

/-- The finished styles of all groups. -/
def captureRules (grammar : String) (field : RegexField) :
    List (Nat × GroupStyle (Placed Rule)) → Placed RuleCaptures
  | [] => return []
  | (group, style) :: rest => do
    let rule ← captureRule grammar field group style
    return (group, rule) :: (← captureRules grammar field rest)

/-- The text of a regex and the styles of its groups. -/
def regexWithCaptures (grammar : String) (field : RegexField) (elidable : Bool) (pattern : Pattern)
    (declared : List (String × Declaration (Placed Rule))) : Placed (String × RuleCaptures) := do
  let fragment ← Placed.inField (.regex field) pattern.compile
  let styles ← Placed.inField (.regex field) (fragment.styles (.ofList declared))
  let elided := GroupStyle.elide elidable fragment.text styles
  return (elided.1, ← captureRules grammar field elided.2)

mutual

/-- The rule of a mode in the grammar with the last segment `grammar`. The end of a span comes
first: if it refers to groups of the beginning, these keep their numbers. -/
def Mode.compile (grammar : String) : Mode → Placed Rule
  | .single pattern scope captures contains => do
    let regex ← regexWithCaptures grammar .whole true pattern
      (compileDeclarations grammar captures)
    let name ← qualified? grammar .name scope
    let patterns ← Placed.inList (compileEach grammar contains)
    return .single name regex.1 regex.2 patterns
  | .span opening closing scope contentScope openingCaptures closingCaptures contains
      closingLast => do
    let last ← regexWithCaptures grammar .closing true closing
      (compileDeclarations grammar closingCaptures)
    let first ← regexWithCaptures grammar .opening (!Regex.hasBackreference last.1) opening
      (compileDeclarations grammar openingCaptures)
    let name ← qualified? grammar .name scope
    let contentName ← qualified? grammar .contentName contentScope
    let patterns ← Placed.inList (compileEach grammar contains)
    return .span name contentName first.1 last.1 first.2 last.2 patterns
      (if closingLast then some 1 else none)
  | .group modes => return .list (← Placed.inList (compileEach grammar modes))
  | .includes target => return .includes target.text
termination_by structural mode => mode

/-- The rules of several modes, each waiting for its place. -/
def compileEach (grammar : String) : List Mode → List (Placed Rule)
  | [] => []
  | mode :: modes => mode.compile grammar :: compileEach grammar modes
termination_by structural modes => modes

/-- Declarations with the rules of their modes. -/
def compileDeclarations (grammar : String) :
    List (String × Declaration Mode) → List (String × Declaration (Placed Rule))
  | [] => []
  | (name, .scope scope) :: rest => (name, .scope scope) :: compileDeclarations grammar rest
  | (name, .rule scope modes) :: rest =>
    (name, .rule scope (compileEach grammar modes)) :: compileDeclarations grammar rest
termination_by structural declared => declared

end

theorem compileEach_eq_map (grammar : String) (modes : List Mode) :
    compileEach grammar modes = modes.map (Mode.compile grammar) := by
  induction modes with
  | nil => rfl
  | cons mode modes ih => exact congrArg (mode.compile grammar :: ·) ih

end TextMate
