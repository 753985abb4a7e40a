import TextMate.Mode

/-!
# Grammars

A grammar as its author builds it, one call after another. Rules of the repository refer to each
other by name only, so nothing is linked here.
-/

set_option autoImplicit false

namespace TextMate

/-- An entry of the repository: one rule, or rules that are tried together. -/
inductive Entry where
  | one (mode : Mode)
  | several (modes : List Mode)

instance : Inhabited Entry := ⟨.several []⟩

/-- What its author says about a language. -/
structure Grammar where
  name : String
  /-- Takes the place of the scope name that is derived from `name`. -/
  scopeName : Option String
  /-- File extensions as they were given. -/
  fileTypes : List String
  patterns : List Mode
  repository : NameMap Entry

namespace Grammar

/-- A grammar without rules. -/
def new (name : String) : Grammar :=
  ⟨name, none, [], [], .empty⟩

def withScopeName (g : Grammar) (scopeName : String) : Grammar :=
  { g with scopeName := some scopeName }

/-- Adds file extensions, with or without a leading dot. -/
def withFileTypes (g : Grammar) (extensions : List String) : Grammar :=
  { g with fileTypes := g.fileTypes ++ extensions }

/-- Adds top-level rules. -/
def withPatterns (g : Grammar) (modes : List Mode) : Grammar :=
  { g with patterns := g.patterns ++ modes }

def withPattern (g : Grammar) (mode : Mode) : Grammar :=
  g.withPatterns [mode]

/-- Puts an entry into the repository. An entry of the same name is replaced. -/
def withRule (g : Grammar) (name : String) (entry : Entry) : Grammar :=
  { g with repository := g.repository.insert name entry }

end Grammar

end TextMate
