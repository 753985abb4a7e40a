import TextMate.Unicode.Blank

/-!
# Trimming

White space at both ends of a text is removed; white space between other characters stays. A
trimmed text is empty exactly if the text is blank throughout (`trim_eq_empty_iff`).
-/

set_option autoImplicit false

namespace TextMate.Text

open Unicode

/-- `cs` without its trailing blanks. -/
def dropTrailingBlanks (cs : List Char) : List Char :=
  (cs.reverse.dropWhile isBlank).reverse

/-- `cs` without the blanks at both ends. -/
def trimChars (cs : List Char) : List Char :=
  dropTrailingBlanks (cs.dropWhile isBlank)

/-- `text` without the blanks at both ends. -/
def trim (text : String) : String :=
  String.ofList (trimChars text.toList)

theorem dropBlanks_eq_nil_iff {cs : List Char} :
    cs.dropWhile isBlank = [] ↔ ∀ c ∈ cs, isBlank c = true := by
  induction cs with
  | nil => simp
  | cons c rest ih => cases h : isBlank c <;> simp [h, ih]

theorem dropTrailingBlanks_eq_nil_iff {cs : List Char} :
    dropTrailingBlanks cs = [] ↔ ∀ c ∈ cs, isBlank c = true := by
  rw [dropTrailingBlanks, List.reverse_eq_nil_iff, dropBlanks_eq_nil_iff]
  simp

theorem trimChars_eq_nil_iff {cs : List Char} :
    trimChars cs = [] ↔ ∀ c ∈ cs, isBlank c = true := by
  induction cs with
  | nil => simp [trimChars, dropTrailingBlanks]
  | cons c rest ih =>
    cases h : isBlank c with
    | true => simpa [trimChars, h] using ih
    | false => simp [trimChars, h, dropTrailingBlanks_eq_nil_iff]

theorem trim_eq_empty_iff {text : String} :
    trim text = "" ↔ ∀ c ∈ text.toList, isBlank c = true := by
  rw [← trimChars_eq_nil_iff, trim, ← String.toList_inj]
  simp

end TextMate.Text
