import TextMate.Json

/-!
# JSON texts

A value is written in one pass. A `Layout` says what stands between the tokens, and `escape` how a
character stands in a string. The two layouts here differ only in white space outside strings, and
together with `writeChar` they make a writer that never fails (`indenting`).
-/

set_option autoImplicit false

namespace TextMate.Json

/-- What stands before an item or a closing bracket at a given depth, and after a field's name. -/
structure Layout where
  lineBreak : Nat → List Char
  afterName : List Char

namespace Layout

/-- No white space at all. -/
def compact : Layout where
  lineBreak _ := []
  afterName := []

/-- One line for each item, indented by two spaces for each level. -/
def pretty : Layout where
  lineBreak depth := '\n' :: List.replicate (2 * depth) ' '
  afterName := [' ']

end Layout

def hexDigit (n : Nat) : Char :=
  if n < 10 then Char.ofNat ('0'.toNat + n) else Char.ofNat ('a'.toNat + (n - 10))

/-- A character inside a string. Quotes, backslashes and control characters are escaped, the
common ones by a letter and the others by their code in four hexadecimal digits. -/
def writeChar (c : Char) : List Char :=
  if c = '"' then ['\\', '"']
  else if c = '\\' then ['\\', '\\']
  else if c = '\x08' then ['\\', 'b']
  else if c = '\x0c' then ['\\', 'f']
  else if c = '\n' then ['\\', 'n']
  else if c = '\r' then ['\\', 'r']
  else if c = '\t' then ['\\', 't']
  else if c.toNat < 0x20 then
    ['\\', 'u', '0', '0', hexDigit (c.toNat / 16), hexDigit (c.toNat % 16)]
  else [c]

section Write

variable (escape : Char → List Char) (layout : Layout)

def writeString (text : String) : List Char :=
  '"' :: text.toList.flatMap escape ++ ['"']

mutual

/-- The text of a value that stands at the given depth. -/
def write (depth : Nat) : Json → List Char
  | .null => "null".toList
  | .bool value => (if value then "true" else "false").toList
  | .number value => value.repr.toList
  | .string value => writeString escape value
  | .list [] => ['[', ']']
  | .list (item :: items) =>
    '[' :: layout.lineBreak (depth + 1) ++ write (depth + 1) item ++
      writeItems (depth + 1) items ++ layout.lineBreak depth ++ [']']
  | .object [] => ['{', '}']
  | .object ((name, value) :: fields) =>
    '{' :: layout.lineBreak (depth + 1) ++ writeString escape name ++ ':' :: layout.afterName ++
      write (depth + 1) value ++ writeFields (depth + 1) fields ++ layout.lineBreak depth ++ ['}']
termination_by structural value => value

/-- The items after the first one. -/
def writeItems (depth : Nat) : List Json → List Char
  | [] => []
  | item :: items =>
    ',' :: layout.lineBreak depth ++ write depth item ++ writeItems depth items
termination_by structural items => items

/-- The fields after the first one. -/
def writeFields (depth : Nat) : List (String × Json) → List Char
  | [] => []
  | (name, value) :: fields =>
    ',' :: layout.lineBreak depth ++ writeString escape name ++ ':' :: layout.afterName ++
      write depth value ++ writeFields depth fields
termination_by structural fields => fields

end

end Write

/-- The value without white space between its tokens. -/
def compact (value : Json) : String :=
  String.ofList (write writeChar .compact 0 value)

/-- The value with one line for each item. -/
def pretty (value : Json) : String :=
  String.ofList (write writeChar .pretty 0 value)

/-- The writer with these two layouts. -/
def indenting : Writer where
  compact value := .ok value.compact
  pretty value := .ok value.pretty

end TextMate.Json
