import TextMate.Regex.Cursor
import TextMate.Regex.Precedence

/-!
# What a scan of a regex finds

The precedence of a regex and the places where its numbered groups open, found in one pass over
the characters without a syntax tree. Only the characters read at the top level bear on the
precedence, and they are the marks of the text. A text is wrapped if it is one numbered group
from its first character to its last.
-/

set_option autoImplicit false

namespace TextMate.Regex

/-- The characters of `cs` that are read at the top level: the first of each atom, each `|`, each
quantifier and each `)` that closes nothing. -/
def marks (k : Cursor) : List Char → List Char
  | [] => []
  | c :: rest =>
    if k = .top then c :: marks (k.step .interval c) rest else marks (k.step .interval c) rest

/-- How tightly a mark that is not the first one binds its neighbours. A stray `)` is ignored. -/
def markPrecedence (c : Char) : Precedence :=
  if c = '|' then .alternation
  else if c = '*' ∨ c = '+' ∨ c = '?' ∨ c = '{' then .quantified
  else if c = ')' then .atom
  else .sequence

/-- The first mark only counts if it is a `|`. -/
def firstMarkPrecedence (c : Char) : Precedence :=
  if c = '|' then .alternation else .atom

/-- The loosest of `ps`, an atom if there are none. -/
def loosest (ps : List Precedence) : Precedence :=
  ps.foldr min .atom

def precedenceOfMarks : List Char → Precedence
  | [] => .atom
  | c :: rest => min (firstMarkPrecedence c) (loosest (rest.map markPrecedence))

/-- The loosest operator of `text` that no bracket guards. -/
def precedence (text : String) : Precedence :=
  precedenceOfMarks (marks .top text.toList)

/-- The offsets of the parentheses in `cs` that open a numbered group, where `i` is the offset of
the first character. A group whose head starts with `?` has no number. -/
def captureStartsFrom (k : Cursor) (i : Nat) : List Char → List Nat
  | [] => []
  | c :: rest =>
    if (k.step .interval c).pending = .groupHead ∧ rest.head? ≠ some '?' then
      i :: captureStartsFrom (k.step .interval c) (i + 1) rest
    else captureStartsFrom (k.step .interval c) (i + 1) rest

/-- The offsets at which the numbered groups of `text` open, in the order of their numbers. -/
def captureStarts (text : String) : List Nat :=
  captureStartsFrom .top 0 text.toList

/-- The number of numbered groups of `text`. -/
def captureCount (text : String) : Nat :=
  (captureStarts text).length

/-- Reading `cs` from `k` closes all brackets for the first time at the last character. -/
def closesAtEnd (braces : Braces) (k : Cursor) : List Char → Bool
  | [] => false
  | c :: rest =>
    if (k.step braces c).nest = [] then rest.isEmpty else closesAtEnd braces (k.step braces c) rest

/-- The whole of `text` is one numbered group. Braces count as literals here. -/
def isWrapped (text : String) : Bool :=
  match text.toList with
  | '(' :: c :: rest => c ≠ '?' && closesAtEnd .literal (Cursor.top.step .literal '(') (c :: rest)
  | _ => false

theorem marks_append (k : Cursor) (as bs : List Char) :
    marks k (as ++ bs) = marks k as ++ marks (k.after .interval as) bs := by
  induction as generalizing k with
  | nil => rfl
  | cons c rest ih =>
    simp only [List.cons_append, marks, Cursor.after_cons, ih]
    split <;> rfl

theorem loosest_append (ps qs : List Precedence) :
    loosest (ps ++ qs) = min (loosest ps) (loosest qs) := by
  induction ps with
  | nil => exact (Precedence.atom_min _).symm
  | cons p ps ih => exact (congrArg (min p) ih).trans (Precedence.min_assoc ..).symm

end TextMate.Regex
