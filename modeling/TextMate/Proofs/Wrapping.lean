import TextMate.Proofs.Elision
import TextMate.Proofs.References

/-!
# Groups around self-contained texts

The test for an outer group reads braces as literals, the scan reads them as intervals. In a
self-contained text only the characters of an interval stand between braces, so both readings open
and close the same brackets (`Cursor.step_literal`). A self-contained text in a numbered group is
therefore wrapped.
-/

set_option autoImplicit false

namespace TextMate.Regex

/-- The characters that open or close something outside a set, or take the next one along. -/
def structural : List Char :=
  ['\\', '(', ')', '[']

/-- The characters of an interval are none of them. -/
theorem not_structural {c : Char} (h : isIntervalChar c = true) : c ∉ structural := by
  have subset : structural ⊆ scanned := by simp [structural, scanned]
  intro hc
  rw [isIntervalChar_scanned c (subset hc)] at h
  cases h

namespace Cursor

/-- The cursor with its interval read as literals: nothing is pending there. -/
def asLiteral (k : Cursor) : Cursor :=
  if k.pending = .interval then ⟨k.nest, .nothing⟩ else k

/-- An interval is under way only where braces are read as one, which is outside a set. -/
def Sound (k : Cursor) : Prop :=
  k.pending = .interval → k.nest.head? ≠ some .set

@[simp] theorem nest_asLiteral (k : Cursor) : k.asLiteral.nest = k.nest := by
  unfold asLiteral
  split <;> rfl

theorem asLiteral_of_ne {k : Cursor} (h : k.pending ≠ .interval) : k.asLiteral = k :=
  if_neg h

theorem read_literal (nest : List Bracket) (c : Char) :
    read .literal nest c = (read .interval nest c).asLiteral := by
  unfold read readInSet readOutsideSet
  grind [asLiteral]

theorem sound_read (nest : List Bracket) (c : Char) : (read .interval nest c).Sound := by
  unfold Sound read readInSet readOutsideSet
  grind

/-- A character that opens, closes and escapes nothing stands for itself outside a set. -/
theorem read_plain {nest : List Bracket} {c : Char} (plain : c ∉ structural)
    (outside : nest.head? ≠ some .set) : read .literal nest c = ⟨nest, .nothing⟩ := by
  simp only [structural, List.mem_cons, List.not_mem_nil, or_false, not_or] at plain
  simp [read, if_neg outside, readOutsideSet, plain]

/-- Between the braces of a self-contained text stands no other character. -/
theorem Allows.plain {k : Cursor} {c : Char} (h : k.Allows c) (interval : k.pending = .interval) :
    c ∉ structural := by
  have inner : c = '}' ∨ isIntervalChar c = true := by
    obtain ⟨nest, pending⟩ := k
    subst interval
    exact h
  rcases inner with rfl | inner
  · decide
  · exact not_structural inner

theorem sound_of_ne {nest : List Bracket} {p : Pending} (h : p ≠ .interval) : Sound ⟨nest, p⟩ :=
  fun interval => absurd interval h

/-- One step opens and closes the same brackets in both readings. -/
theorem step_literal {k : Cursor} {c : Char} (sound : k.Sound)
    (h : k.pending = .interval → c ∉ structural) :
    k.asLiteral.step .literal c = (k.step .interval c).asLiteral ∧ (k.step .interval c).Sound := by
  obtain ⟨nest, pending⟩ := k
  cases pending with
  | nothing => exact ⟨read_literal nest c, sound_read nest c⟩
  | groupHead => exact ⟨read_literal nest c, sound_read nest c⟩
  | escape => exact ⟨rfl, sound_of_ne (p := .nothing) (by decide)⟩
  | interval =>
    have outside : nest.head? ≠ some .set := sound rfl
    have start : asLiteral ⟨nest, .interval⟩ = ⟨nest, .nothing⟩ := if_pos rfl
    rw [start, show step .literal ⟨nest, .nothing⟩ c = ⟨nest, .nothing⟩ from read_plain (h rfl) outside]
    simp only [step]
    split
    · exact ⟨rfl, sound_of_ne (p := .nothing) (by decide)⟩
    · exact ⟨start.symm, sound⟩
  | setHead =>
    rw [asLiteral_of_ne (by simp)]
    simp only [step]
    split
    · exact ⟨rfl, sound_of_ne (p := .negatedSetHead) (by decide)⟩
    · split
      · exact ⟨rfl, sound_of_ne (p := .nothing) (by decide)⟩
      · exact ⟨read_literal nest c, sound_read nest c⟩
  | negatedSetHead =>
    rw [asLiteral_of_ne (by simp)]
    simp only [step]
    split
    · exact ⟨rfl, sound_of_ne (p := .nothing) (by decide)⟩
    · exact ⟨read_literal nest c, sound_read nest c⟩

/-- A group around the text is no set either. -/
theorem Sound.inGroup {k : Cursor} (h : k.Sound) : (k.within [.group]).Sound := by
  obtain ⟨nest, pending⟩ := k
  intro interval
  cases nest with
  | nil => exact (by decide : some Bracket.group ≠ some .set)
  | cons b nest => exact h interval

end Cursor

/-- A text whose characters are allowed closes no bracket around it, so the group around it is closed
by the parenthesis behind it. -/
theorem closesAtEnd_group {k : Cursor} {cs : List Char} (sound : k.Sound) (h : k.AllowsAll cs)
    (closed : k.after .interval cs = .top) :
    closesAtEnd .literal (k.within [.group]).asLiteral (cs ++ [')']) = true := by
  induction cs generalizing k with
  | nil =>
    obtain rfl : k = .top := closed
    rfl
  | cons c rest ih =>
    have step : (k.within [.group]).asLiteral.step .literal c =
        ((k.step .interval c).within [.group]).asLiteral := by
      rw [(Cursor.step_literal sound.inGroup (Cursor.allows_within h.1).plain).1,
        Cursor.step_within h.1 (by decide)]
    have open' : ((k.step .interval c).within [.group]).asLiteral.nest ≠ [] := by
      simp [Cursor.within]
    rw [List.cons_append, closesAtEnd, step, if_neg open']
    exact ih (Cursor.step_literal sound h.1.plain).2 h.2 closed

/-- A self-contained text in a numbered group is wrapped. -/
theorem isWrapped_group {cs : List Char} (h : SelfContained cs) {text : String}
    (chars : text.toList = '(' :: (cs ++ [')'])) : isWrapped text = true := by
  have group : Cursor.top.step .literal '(' = ⟨[.group], .groupHead⟩ := rfl
  have body : closesAtEnd .literal ⟨[.group], .groupHead⟩ (cs ++ [')']) = true := by
    have inside := closesAtEnd_group (k := .top) nofun h.allowed h.closed
    cases cs <;> exact inside
  unfold isWrapped
  rw [chars]
  cases cs with
  | nil => rfl
  | cons c rest =>
    have head : c ≠ '?' := fun question => h.head?_ne (congrArg some question)
    rw [List.cons_append] at body ⊢
    simp [head, group, body]

end TextMate.Regex
