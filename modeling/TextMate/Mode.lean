import TextMate.NameMap
import TextMate.Pattern

/-!
# Modes

A mode is a lexical rule as its author writes it. What is to happen to a capture is declared by
the name of the capture. The declarations of a mode are a list, and a later one replaces an
earlier one of the same name.
-/

set_option autoImplicit false

namespace TextMate

/-- What an include points to. -/
inductive Reference where
  /-- A rule of the repository. -/
  | rule (name : String)
  /-- The top-level rules of this grammar. -/
  | self
  /-- The top-level rules of the grammar that started to highlight. -/
  | base
  /-- The top-level rules of another grammar. -/
  | grammar (scopeName : String)
  /-- A rule in the repository of another grammar. -/
  | grammarRule (scopeName name : String)
  deriving DecidableEq, Repr

/-- The reference as an include writes it. -/
def Reference.text : Reference → String
  | rule name => "#" ++ name
  | self => "$self"
  | base => "$base"
  | grammar scopeName => scopeName
  | grammarRule scopeName name => scopeName ++ "#" ++ name

instance : ToString Reference := ⟨Reference.text⟩

/-- What is declared for a capture: a scope, or rules for its text and perhaps a scope. -/
inductive Declaration (α : Type) where
  | scope (scope : Scope)
  | rule (scope : Option Scope) (patterns : List α)

namespace Declaration

variable {α : Type}

def scope? : Declaration α → Option Scope
  | .scope s => some s
  | .rule s _ => s

def patterns : Declaration α → List α
  | .scope _ => []
  | .rule _ ps => ps

end Declaration

/-- The name that stands for the whole match, which is group 0. -/
def wholeMatch : String := "$all"

/-- A lexical rule. -/
inductive Mode where
  /-- A rule with one regex. -/
  | single (pattern : Pattern) (scope : Option Scope)
      (captures : List (String × Declaration Mode)) (contains : List Mode)
  /-- A rule from the match of `opening` to the next match of `closing`. With `closingLast` the
  rules inside are tried before `closing`. -/
  | span (opening closing : Pattern) (scope contentScope : Option Scope)
      (openingCaptures closingCaptures : List (String × Declaration Mode)) (contains : List Mode)
      (closingLast : Bool)
  /-- Several rules that are tried together. -/
  | group (modes : List Mode)
  | includes (target : Reference)

instance : Inhabited Mode := ⟨.group []⟩

/-- Declarations by capture name. -/
abbrev Declarations := NameMap (Declaration Mode)

end TextMate
