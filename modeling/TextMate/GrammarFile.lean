import TextMate.Grammar.Extension
import TextMate.Grammar.ScopeName
import TextMate.Mode.Rule

/-!
# Finished grammars

A grammar is compiled all or nothing. The scope name is derived first, then come the top-level
rules in order, then the repository in the order of its names.
-/

set_option autoImplicit false

namespace TextMate

/-- A grammar as a highlighter reads it. The repository is in the order of its names. -/
structure GrammarFile where
  name : String
  scopeName : String
  fileTypes : List String
  patterns : List Rule
  repository : List (String × Rule)

/-- The rule of an entry of the repository. -/
def Entry.compile (grammar : String) : Entry → Placed Rule
  | one mode => mode.compile grammar
  | several modes => return .list (← Placed.inList (compileEach grammar modes))

/-- The rules of the repository, each under its name. -/
def compileRepository (grammar : String) :
    List (String × Entry) → Placed (List (String × Rule))
  | [] => return []
  | (name, entry) :: rest => do
    let rule ← (entry.compile grammar).under (.repository name)
    return (name, rule) :: (← compileRepository grammar rest)

namespace Grammar

/-- The rules of the grammar, at the root. -/
def compileRules (g : Grammar) (segment : String) : Placed GrammarFile := do
  let patterns ← Placed.inList (compileEach segment g.patterns)
  let repository ← compileRepository segment g.repository.entries
  return {
    name := g.name
    scopeName := rootSegment ++ segment
    fileTypes := normalExtensions g.fileTypes
    patterns, repository }

/-- The finished grammar, or the first error. -/
def compile (g : Grammar) : Except Error GrammarFile :=
  match g.segment with
  | .error fault => .error (.plain fault)
  | .ok segment =>
    match g.compileRules segment [] with
    | .error failure => .error failure.toError
    | .ok compiled => .ok compiled

end Grammar

end TextMate
