/-!
# Reading a regex character by character

A `Cursor` is all that the characters read so far say about the next one: the brackets that are
open, and whether an escape, the head of a bracket or an interval is under way. One step reads
one character, so reading a text is a fold and two texts in a row are read one after the other.

Braces are read in one of two ways. As an interval, everything up to the closing brace belongs
to a quantifier and opens nothing. As literals, they stand for themselves.
-/

set_option autoImplicit false

namespace TextMate.Regex

/-- An open bracket: `(` opens a group and `[` a set of characters. -/
inductive Bracket where
  | group
  | set
  deriving DecidableEq, Repr

/-- What the last characters read ask of the next one. -/
inductive Pending where
  | nothing
  /-- After a backslash: the next character is escaped. -/
  | escape
  /-- After the `(` of a group: a `?` would take its number away. -/
  | groupHead
  /-- After the `[` of a set: a `]` is a literal, and a `^` may come first. -/
  | setHead
  /-- After `[^`: a `]` is a literal. -/
  | negatedSetHead
  /-- After the `{` of an interval. -/
  | interval
  deriving DecidableEq, Repr

/-- The two ways to read braces. -/
inductive Braces where
  | interval
  | literal
  deriving DecidableEq, Repr

/-- The state between two characters: the open brackets, innermost first, and what is pending. -/
structure Cursor where
  nest : List Bracket
  pending : Pending
  deriving DecidableEq, Repr

namespace Cursor

/-- Nothing is open and nothing is pending: the next character stands at the top level. -/
def top : Cursor := ⟨[], .nothing⟩

/-- Reads a character of a set. Sets nest, and all other characters are literals. -/
def readInSet (nest : List Bracket) (c : Char) : Cursor :=
  if c = ']' then ⟨nest.tail, .nothing⟩
  else if c = '[' then ⟨.set :: nest, .setHead⟩
  else ⟨nest, .nothing⟩

/-- Reads a character outside a set. A `)` without an open group closes nothing. -/
def readOutsideSet (braces : Braces) (nest : List Bracket) (c : Char) : Cursor :=
  if c = '(' then ⟨.group :: nest, .groupHead⟩
  else if c = '[' then ⟨.set :: nest, .setHead⟩
  else if c = ')' then ⟨nest.tail, .nothing⟩
  else if c = '{' ∧ braces = .interval then ⟨nest, .interval⟩
  else ⟨nest, .nothing⟩

/-- Reads a character that nothing before it lays claim to. -/
def read (braces : Braces) (nest : List Bracket) (c : Char) : Cursor :=
  if c = '\\' then ⟨nest, .escape⟩
  else if nest.head? = some .set then readInSet nest c
  else readOutsideSet braces nest c

/-- Reads one character. -/
def step (braces : Braces) (k : Cursor) (c : Char) : Cursor :=
  match k.pending with
  | .escape => ⟨k.nest, .nothing⟩
  | .interval => if c = '}' then ⟨k.nest, .nothing⟩ else k
  | .setHead =>
    if c = '^' then ⟨k.nest, .negatedSetHead⟩
    else if c = ']' then ⟨k.nest, .nothing⟩
    else read braces k.nest c
  | .negatedSetHead => if c = ']' then ⟨k.nest, .nothing⟩ else read braces k.nest c
  | .nothing | .groupHead => read braces k.nest c

/-- The cursor after a whole text. -/
def after (braces : Braces) (k : Cursor) (cs : List Char) : Cursor :=
  cs.foldl (step braces) k

@[simp] theorem after_nil (braces : Braces) (k : Cursor) : after braces k [] = k := rfl

@[simp] theorem after_cons (braces : Braces) (k : Cursor) (c : Char) (cs : List Char) :
    after braces k (c :: cs) = after braces (step braces k c) cs := rfl

/-- Two texts in a row are read one after the other. -/
theorem after_append (braces : Braces) (k : Cursor) (as bs : List Char) :
    after braces k (as ++ bs) = after braces (after braces k as) bs :=
  List.foldl_append

end Cursor

end TextMate.Regex
