/-!
# JSON values

The values that a grammar and its tools write. An object is a list of fields and keeps their
order, since the order is part of the text. How values become texts is left to a `Writer`.
-/

set_option autoImplicit false

namespace TextMate

inductive Json where
  | null
  | bool (value : Bool)
  | number (value : Nat)
  | string (value : String)
  | list (items : List Json)
  | object (fields : List (String × Json))
  deriving Inhabited

namespace Json

/-- A field that is left out if there is no value. -/
def field? (name : String) : Option Json → List (String × Json)
  | none => []
  | some value => [(name, value)]

/-- Turns values into texts, without line breaks or laid out to be read. It may fail, with a message. -/
structure Writer where
  compact : Json → Except String String
  pretty : Json → Except String String

def Writer.write (w : Writer) (pretty : Bool) (value : Json) : Except String String :=
  if pretty then w.pretty value else w.compact value

end Json

end TextMate
