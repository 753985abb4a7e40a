import TextMate.GrammarFile
import TextMate.Json

/-!
# Grammars as JSON

The fields stand in a fixed order. In a rule, a field without content is left out; a grammar has
all its fields, and a rule that only holds other rules has its list even if it is empty. A writer turns
the value of a grammar into its text.
-/

set_option autoImplicit false

namespace TextMate

open Json (field?)

/-- An optional scope name. -/
def nameField (field : String) (name : Option String) : List (String × Json) :=
  field? field (name.map .string)

/-- Captures, left out if there are none. -/
def capturesField (field : RegexField) (captures : List (String × Json)) : List (String × Json) :=
  if captures = [] then [] else [(field.capturesLabel, .object captures)]

/-- Rules inside another rule, left out if there are none. -/
def patternsField (patterns : List Json) : List (String × Json) :=
  if patterns = [] then [] else [("patterns", .list patterns)]

mutual

def Rule.toJson : Rule → Json
  | .single name regex captures patterns =>
    .object (nameField "name" name ++ [("match", .string regex)] ++
      capturesField .whole (capturesToJson captures) ++ patternsField (rulesToJson patterns))
  | .span name contentName opening closing openingCaptures closingCaptures patterns closingLast =>
    .object (nameField "name" name ++ nameField "contentName" contentName ++
      [("begin", .string opening), ("end", .string closing)] ++
      capturesField .opening (capturesToJson openingCaptures) ++
      capturesField .closing (capturesToJson closingCaptures) ++
      patternsField (rulesToJson patterns) ++
      field? "applyEndPatternLast" (closingLast.map .number))
  | .includes target => .object [("include", .string target)]
  | .list patterns => .object [("patterns", .list (rulesToJson patterns))]
termination_by structural rule => rule

def rulesToJson : List Rule → List Json
  | [] => []
  | rule :: rules => rule.toJson :: rulesToJson rules
termination_by structural rules => rules

/-- Group numbers are written as names. -/
def capturesToJson : List (Nat × CaptureRule Rule) → List (String × Json)
  | [] => []
  | (group, ⟨name, patterns⟩) :: rest =>
    (group.repr, .object (nameField "name" name ++ patternsField (rulesToJson patterns))) ::
      capturesToJson rest
termination_by structural captures => captures

end

namespace GrammarFile

def toJson (g : GrammarFile) : Json :=
  .object [
    ("name", .string g.name),
    ("scopeName", .string g.scopeName),
    ("fileTypes", .list (g.fileTypes.map .string)),
    ("patterns", .list (rulesToJson g.patterns)),
    ("repository", .object (g.repository.map fun e => (e.1, e.2.toJson)))]

/-- The text of the grammar, without line breaks or laid out to be read. If the writer fails, what it says
is reported. -/
def text (g : GrammarFile) (writer : Json.Writer) (pretty : Bool) : Except Error String :=
  match writer.write pretty g.toJson with
  | .error message => .error (.plain (.serialization message))
  | .ok text => .ok text

variable {g : GrammarFile} {writer : Json.Writer} {pretty : Bool}

theorem text_eq_ok_iff {text : String} :
    g.text writer pretty = .ok text ↔ writer.write pretty g.toJson = .ok text := by
  rw [GrammarFile.text]
  cases writer.write pretty g.toJson <;> simp

theorem text_eq_error_iff {e : Error} :
    g.text writer pretty = .error e ↔
      ∃ message, writer.write pretty g.toJson = .error message ∧ e = .plain (.serialization message) := by
  rw [GrammarFile.text]
  cases writer.write pretty g.toJson <;> simp [eq_comm]

end GrammarFile

end TextMate
