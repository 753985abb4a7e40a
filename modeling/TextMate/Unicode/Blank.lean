import TextMate.Unicode.Run

/-!
# Blank characters

The characters with the Unicode property White_Space. Trimming removes them, and a scope name
must not hold one.
-/

set_option autoImplicit false

namespace TextMate.Unicode

/-- White space, in increasing order. -/
def blankRuns : List Run :=
  [⟨9, 13, 1⟩, ⟨32, 32, 1⟩, ⟨133, 133, 1⟩, ⟨160, 160, 1⟩, ⟨5760, 5760, 1⟩, ⟨8192, 8202, 1⟩,
   ⟨8232, 8233, 1⟩, ⟨8239, 8239, 1⟩, ⟨8287, 8287, 1⟩, ⟨12288, 12288, 1⟩]

def isBlank (c : Char) : Bool := inRuns blankRuns c

end TextMate.Unicode
