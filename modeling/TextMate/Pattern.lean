import TextMate.Scope

/-!
# Patterns

A pattern is a tree that describes a regex. Captures have an identity of their own, so that the
same capture can stand in several places and two captures may share a name. A highlight belongs
to a capture: the one it is put on, or else a group that is opened for it.
-/

set_option autoImplicit false

namespace TextMate

/-- The identity of a capture: a serial number that no other node has, and the name of the
capture unless it is the group of a highlight. -/
structure CaptureId where
  serial : Nat
  name? : Option String
  deriving DecidableEq, Repr

/-- The four assertions about the surroundings of a match. -/
inductive Look where
  | ahead
  | notAhead
  | behind
  | notBehind
  deriving DecidableEq, Repr

/-- A description of a regex. -/
inductive Pattern where
  /-- The text of a regex, taken as it is. -/
  | leaf (text : String)
  | sequence (first second : Pattern)
  | alternation (first second : Pattern)
  /-- At least `min` times in a row, and at most `max` times if there is a limit. -/
  | repetition (element : Pattern) (min : Nat) (max : Option Nat)
  /-- A numbered group with a name. -/
  | capture (element : Pattern) (name : String) (serial : Nat)
  | look (kind : Look) (element : Pattern)
  /-- Highlights what `element` matches. -/
  | tag (element : Pattern) (scopes : List Scope) (serial : Nat)
  deriving DecidableEq, Repr, Inhabited

namespace Pattern

/-- The identity of a capture node. -/
def captureId? : Pattern → Option CaptureId
  | capture _ name serial => some ⟨serial, some name⟩
  | _ => none

/-- The capture that a highlight on the pattern belongs to, if the pattern has one. Highlights
on one another all belong to the same capture. -/
def target? : Pattern → Option CaptureId
  | capture _ name serial => some ⟨serial, some name⟩
  | tag element _ serial => some (element.target?.getD ⟨serial, none⟩)
  | _ => none

/-- Why the pattern cannot be highlighted, if it is known from its outermost node. -/
def untaggable? : Pattern → Option String
  | look _ _ => some "lookarounds are zero-width"
  | leaf text => if text = "" then some "the pattern is empty" else none
  | _ => none

end Pattern

end TextMate
