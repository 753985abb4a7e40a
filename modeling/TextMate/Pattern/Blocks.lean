import TextMate.Pattern
import TextMate.Regex.Literal

/-!
# Building blocks

Patterns for common pieces of text, and lists of patterns joined into one.
-/

set_option autoImplicit false

namespace TextMate.Pattern

/-- Matches `text` and nothing else. -/
def literal (text : String) : Pattern :=
  leaf (Regex.escape text)

/-- One pattern after the other. No patterns at all match the empty text. -/
def inOrder : List Pattern → Pattern
  | [] => leaf ""
  | p :: ps => ps.foldl sequence p

/-- Any one of the patterns. No patterns at all never match. -/
def anyOf : List Pattern → Pattern
  | [] => leaf "(?!)"
  | p :: ps => ps.foldl alternation p

def zeroOrMore (element : Pattern) : Pattern :=
  repetition element 0 none

def oneOrMore (element : Pattern) : Pattern :=
  repetition element 1 none

def optional (element : Pattern) : Pattern :=
  repetition element 0 (some 1)

/-- A space or a tab. -/
def space : Pattern := leaf "[ \\t]"

def whitespace : Pattern := leaf "\\s"

/-- A letter or an underscore, then letters, digits and underscores. -/
def identifier : Pattern := leaf "[A-Za-z_][A-Za-z0-9_]*"

def digit : Pattern := leaf "\\d"

def wordBoundary : Pattern := leaf "\\b"

def lineStart : Pattern := leaf "^"

def lineEnd : Pattern := leaf "$"

def anyChar : Pattern := leaf "."

/-- Any one of `words`, as a whole word. -/
def keywords (words : List String) : Pattern :=
  inOrder [wordBoundary, anyOf (words.map literal), wordBoundary]

end TextMate.Pattern
