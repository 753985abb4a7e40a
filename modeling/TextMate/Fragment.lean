import TextMate.NameMap
import TextMate.Pattern
import TextMate.Regex.Scan

/-!
# Fragments

A fragment is the text of a regex with all that is needed to find its groups. The list `groups`
has one place for each numbered group, labelled with the capture it was opened for, so a group's
number is its place in the list. Putting fragments together appends these lists and renumbers
nothing. Group numbers, names and tags are views of the lists.
-/

set_option autoImplicit false

namespace TextMate

open Regex (Precedence)

/-- A regex that other regexes can be put next to. -/
structure Fragment where
  text : String
  precedence : Precedence
  /-- The numbered groups from left to right. A group that a leaf opens has no label. -/
  groups : List (Option CaptureId)
  /-- The named captures, each after all the captures inside it. -/
  bound : List CaptureId
  /-- The scopes that were put on captures, in that order. -/
  highlights : List (CaptureId × List Scope)
  deriving DecidableEq, Repr

namespace Fragment

def captureCount (f : Fragment) : Nat :=
  f.groups.length

/-- The group numbers of a capture, in increasing order. A capture that stands in several places
has several. -/
def groupsOf (f : Fragment) (id : CaptureId) : List Nat :=
  (f.groups.zipIdx 1).filterMap fun g => if g.1 = some id then some g.2 else none

/-- The captures that have a group. -/
def captures (f : Fragment) : List CaptureId :=
  (f.groups.filterMap id).eraseDups

/-- The capture that each name stands for: the last one of that name. -/
def names (f : Fragment) : NameMap CaptureId :=
  .ofList (f.bound.filterMap fun id => id.name?.map fun name => (name, id))

/-- Two different captures are called `name`. -/
def isAmbiguous (f : Fragment) (name : String) : Bool :=
  f.bound.any fun a => f.bound.any fun b =>
    decide (a.name? = some name ∧ b.name? = some name ∧ a ≠ b)

/-- The ambiguous names in increasing order. -/
def ambiguousNames (f : Fragment) : List String :=
  (f.names.entries.map Prod.fst).filter f.isAmbiguous

/-- Every group number of the capture called `name`. -/
def groupsNamed (f : Fragment) (name : String) : List Nat :=
  match f.names.get? name with
  | none => []
  | some id => f.groupsOf id

/-- The first group number of the capture called `name`. -/
def firstGroupNamed? (f : Fragment) (name : String) : Option Nat :=
  (f.groupsNamed name).head?

/-- The captures that were highlighted, with or without a scope. -/
def highlighted (f : Fragment) : List CaptureId :=
  (f.highlights.map Prod.fst).eraseDups

/-- The scopes that were put on a capture, each at its first occurrence. -/
def tagsOf (f : Fragment) (id : CaptureId) : List Scope :=
  ((f.highlights.filter fun h => h.1 = id).flatMap Prod.snd).eraseDups

/-- A fragment that is read off its text. -/
def leaf (text : String) : Fragment where
  text := text
  precedence := Regex.precedence text
  groups := List.replicate (Regex.captureCount text) none
  bound := []
  highlights := []

/-- The fragment between parentheses that take no number, if it binds looser than `least`. -/
def guarded (least : Precedence) (f : Fragment) : Fragment :=
  if f.precedence < least then { f with text := "(?:" ++ f.text ++ ")", precedence := .atom } else f

/-- The two texts with `separator` between them. -/
def joined (f g : Fragment) (separator : String) (precedence : Precedence) : Fragment where
  text := f.text ++ separator ++ g.text
  precedence := precedence
  groups := f.groups ++ g.groups
  bound := f.bound ++ g.bound
  highlights := f.highlights ++ g.highlights

/-- One text right after the other. An empty one leaves the precedence of the other as it is. -/
def adjoined (f g : Fragment) : Fragment :=
  f.joined g ""
    (if f.text = "" then g.precedence else if g.text = "" then f.precedence else .sequence)

/-- One fragment after the other, each guarded if it is an alternation. -/
def beside (f g : Fragment) : Fragment :=
  (f.guarded .sequence).adjoined (g.guarded .sequence)

/-- Either fragment. -/
def either (f g : Fragment) : Fragment :=
  f.joined g "|" .alternation

/-- The fragment with a quantifier behind it. -/
def quantified (f : Fragment) (quantifier : String) : Fragment :=
  { f with text := f.text ++ quantifier, precedence := .quantified }

/-- The fragment under a quantifier. A quantified atom is guarded first: a second quantifier
would change the meaning of the first. -/
def repeated (f : Fragment) (quantifier : String) : Except Fault Fragment :=
  if (f.guarded .atom).text = "" then .error .emptyRepetition
  else .ok ((f.guarded .atom).quantified quantifier)

/-- The fragment in a numbered group that was opened for `id`. -/
def inGroup (f : Fragment) (id : CaptureId) : Fragment where
  text := "(" ++ f.text ++ ")"
  precedence := .atom
  groups := some id :: f.groups
  bound := if id.name?.isSome then f.bound ++ [id] else f.bound
  highlights := f.highlights

def lookOpening : Look → String
  | .ahead => "(?="
  | .notAhead => "(?!"
  | .behind => "(?<="
  | .notBehind => "(?<!"

/-- The fragment as an assertion. -/
def looked (f : Fragment) (kind : Look) : Fragment :=
  { f with text := lookOpening kind ++ f.text ++ ")", precedence := .atom }

/-- Puts scopes on a capture. -/
def highlight (f : Fragment) (id : CaptureId) (scopes : List Scope) : Fragment :=
  { f with highlights := f.highlights ++ [(id, scopes)] }

@[simp] theorem groups_guarded (least : Precedence) (f : Fragment) :
    (f.guarded least).groups = f.groups := by
  unfold guarded
  split <;> rfl

@[simp] theorem bound_guarded (least : Precedence) (f : Fragment) :
    (f.guarded least).bound = f.bound := by
  unfold guarded
  split <;> rfl

@[simp] theorem highlights_guarded (least : Precedence) (f : Fragment) :
    (f.guarded least).highlights = f.highlights := by
  unfold guarded
  split <;> rfl

@[simp] theorem groups_beside (f g : Fragment) : (f.beside g).groups = f.groups ++ g.groups := by
  simp [beside, adjoined, joined]

@[simp] theorem bound_beside (f g : Fragment) : (f.beside g).bound = f.bound ++ g.bound := by
  simp [beside, adjoined, joined]

@[simp] theorem highlights_beside (f g : Fragment) :
    (f.beside g).highlights = f.highlights ++ g.highlights := by
  simp [beside, adjoined, joined]

end Fragment

end TextMate
