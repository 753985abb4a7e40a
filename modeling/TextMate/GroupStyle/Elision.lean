import TextMate.GroupStyle
import TextMate.Regex.Backreference

/-!
# Leaving out the outer group

A regex that is one group from end to end needs no parentheses if the group is only there to be
highlighted. Its style moves to the whole match and every other group moves down by one.
-/

set_option autoImplicit false

namespace TextMate.GroupStyle

variable {α : Type}

/-- The outer group of `text` may be left out: it has a scope, the whole match has no style, and
no reference in the text would be moved. -/
def isElidable (text : String) (styles : List (Nat × GroupStyle α)) : Bool :=
  (styles.lookup 1).any (fun style => !style.scopes.isEmpty) && (styles.lookup 0).isNone &&
    Regex.isWrapped text && !Regex.hasBackreference text

/-- `text` without its first and its last character. -/
def innerText (text : String) : String :=
  String.ofList text.toList.tail.dropLast

/-- Leaves out the outer group if that is allowed and changes nothing else. -/
def elide (allowed : Bool) (text : String) (styles : List (Nat × GroupStyle α)) :
    String × List (Nat × GroupStyle α) :=
  if allowed && isElidable text styles then
    (innerText text, styles.map fun g => (g.1 - 1, g.2))
  else (text, styles)

end TextMate.GroupStyle
