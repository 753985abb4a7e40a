/-!
# Rules

A rule as a highlighter reads it: texts of regexes, qualified scope names, and styles keyed by
group numbers.
-/

set_option autoImplicit false

namespace TextMate

/-- The style of one group. -/
structure CaptureRule (ρ : Type) where
  name : Option String
  patterns : List ρ

inductive Rule where
  /-- A rule with one regex. -/
  | single (name : Option String) (regex : String) (captures : List (Nat × CaptureRule Rule))
      (patterns : List Rule)
  /-- A rule from the match of `opening` to the next match of `closing`. -/
  | span (name contentName : Option String) (opening closing : String)
      (openingCaptures closingCaptures : List (Nat × CaptureRule Rule)) (patterns : List Rule)
      (closingLast : Option Nat)
  | includes (target : String)
  /-- Rules that are tried together. -/
  | list (patterns : List Rule)

instance : Inhabited Rule := ⟨.list []⟩

/-- The captures of a rule, keyed by group numbers in increasing order. -/
abbrev RuleCaptures := List (Nat × CaptureRule Rule)

end TextMate
