import TextMate.Unicode.Alphanumeric
import TextMate.Unicode.Uppercase
import TextMate.Unicode.Lowercase
import TextMate.Unicode.LowercaseForm

/-!
# Kebab case

A name is cut into words, the words are written in lower case and joined by hyphens, so that
`My Language` becomes `my-language` and `HTTPHeaders` becomes `http-headers`. Only letters and
numbers are kept. Whether a word starts at a character depends on its two neighbours alone.
-/

set_option autoImplicit false

namespace TextMate.Text

open Unicode

/-- A word starts at `c`, which stands right after `before`. Anything but a letter or a number
separates words. A capital starts one after a lower-case letter or a digit, and at the end of a
run of capitals if a lower-case letter follows. -/
def startsWord (before c : Char) (after? : Option Char) : Bool :=
  !isAlphanumeric before ||
    isUppercase c &&
      (isLowercase before || before.isDigit || isUppercase before && after?.any isLowercase)

/-- The words of `cs` after a first letter or number, where `before` stands right before `cs`. -/
def kebabAfter (before : Char) : List Char → List Char
  | [] => []
  | c :: rest =>
    if isAlphanumeric c then
      (if startsWord before c rest.head? then ['-'] else []) ++ lowercaseForm c ++ kebabAfter c rest
    else kebabAfter c rest

def kebabChars (cs : List Char) : List Char :=
  match cs.dropWhile (!isAlphanumeric ·) with
  | [] => []
  | c :: rest => lowercaseForm c ++ kebabAfter c rest

/-- The words of `name` in lower case, joined by hyphens. -/
def kebab (name : String) : String :=
  String.ofList (kebabChars name.toList)

end TextMate.Text
