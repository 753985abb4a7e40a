import TextMate.Fragment
import TextMate.Mode

/-!
# Styles of groups

The tags found in a regex and the captures declared by name meet at group numbers. The style of a
group depends only on the capture it was opened for: first the scopes put on that capture, then
what is declared for its name. Group 0 is the whole match and has only what is declared for it.
-/

set_option autoImplicit false

namespace TextMate

variable {α : Type}

/-- How the text of a group is highlighted: with scopes, in order, and by rules run on it. -/
structure GroupStyle (α : Type) where
  scopes : List Scope
  patterns : List α

namespace Fragment

/-- Whether a declaration for `name` finds a group. -/
def checkName (f : Fragment) (name : String) : Except Fault Unit :=
  if name = wholeMatch then
    if f.text = "" then .error (.unresolvedCapture name) else .ok ()
  else if f.isAmbiguous name then .error (.ambiguousName name)
  else if f.groupsNamed name = [] then .error (.unresolvedCapture name)
  else .ok ()

/-- Whether every highlighted capture has a group. -/
def checkHighlighted (f : Fragment) : Except Fault Unit :=
  match f.highlighted.find? fun id => f.groupsOf id = [] with
  | some id => .error (.unresolvedCapture ("<tagged capture " ++ id.serial.repr ++ ">"))
  | none => .ok ()

/-- What is declared for a capture. The name of the whole match is never the name of a group. -/
def declarationFor? (declared : NameMap (Declaration α)) (id : CaptureId) :
    Option (Declaration α) :=
  match id.name? with
  | none => none
  | some name => if name = wholeMatch then none else declared.get? name

/-- The scope that is declared for a capture. -/
def declaredScope? (declared : NameMap (Declaration α)) (id : CaptureId) : Option Scope :=
  (declarationFor? declared id).bind Declaration.scope?

/-- The rules that are declared for a capture. -/
def declaredPatterns (declared : NameMap (Declaration α)) (id : CaptureId) : List α :=
  ((declarationFor? declared id).map Declaration.patterns).getD []

/-- The style of the groups of a capture, if it has any. -/
def styleOf? (f : Fragment) (declared : NameMap (Declaration α)) (id : CaptureId) :
    Option (GroupStyle α) :=
  if id ∈ f.highlighted ∨ (declarationFor? declared id).isSome then
    some ⟨(f.tagsOf id ++ (declaredScope? declared id).toList).eraseDups,
      declaredPatterns declared id⟩
  else none

/-- The style of the whole match. -/
def wholeStyle? (declared : NameMap (Declaration α)) : Option (GroupStyle α) :=
  (declared.get? wholeMatch).map fun spec => ⟨spec.scope?.toList, spec.patterns⟩

/-- The styles of the groups in the order of their numbers. It fails for the first declared name
that finds no group or several captures. -/
def styles (f : Fragment) (declared : NameMap (Declaration α)) :
    Except Fault (List (Nat × GroupStyle α)) := do
  f.checkHighlighted
  declared.entries.forM fun e => f.checkName e.1
  return ((wholeStyle? declared).map fun style => (0, style)).toList ++
    (f.groups.zipIdx 1).filterMap fun g =>
      (g.1.bind (f.styleOf? declared)).map fun style => (g.2, style)

end Fragment

end TextMate
