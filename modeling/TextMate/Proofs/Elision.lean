import TextMate.GroupStyle.Elision
import TextMate.Proofs.Openings

/-!
# The text of an outer group

A wrapped text is a parenthesis, an inner text and the parenthesis that closes the first one. The
groups of the inner text are the groups of the whole text but the first, so leaving out the outer
group moves every other one down by one.
-/

set_option autoImplicit false

namespace TextMate

namespace Regex

/-- Below a bracket that is closed there is the same bottom, unless it was the bottom itself. -/
theorem tail_bottom {nest : List Bracket} {b : Bracket} (h : nest.getLast? = some b) :
    nest = [b] ∨ nest.tail.getLast? = some b := by
  cases nest with
  | nil => cases h
  | cons c rest =>
    cases rest with
    | nil =>
      rw [List.getLast?_singleton, Option.some.injEq] at h
      exact .inl (by rw [h])
    | cons d rest =>
      rw [List.getLast?_cons_cons] at h
      exact .inr h

theorem cons_bottom {nest : List Bracket} {b : Bracket} (h : nest.getLast? = some b) (c : Bracket) :
    (c :: nest).getLast? = some b := by
  rw [List.getLast?_cons, h]
  rfl

/-- A group at the bottom stays there until it is closed, which only a `)` can do. -/
theorem Cursor.read_bottom (braces : Braces) {nest : List Bracket} (c : Char)
    (h : nest.getLast? = some .group) :
    ((read braces nest c).nest = [] ∧ c = ')') ∨
      (read braces nest c).nest.getLast? = some .group := by
  unfold read readInSet readOutsideSet
  split
  · exact .inr h
  · split
    · next inSet =>
      split
      · rcases tail_bottom h with single | below
        · rw [single] at inSet
          cases inSet
        · exact .inr below
      · split
        · exact .inr (cons_bottom h .set)
        · exact .inr h
    · split
      · exact .inr (cons_bottom h .group)
      · split
        · exact .inr (cons_bottom h .set)
        · split
          · next close =>
            rcases tail_bottom h with single | below
            · exact .inl ⟨by rw [single]; rfl, close⟩
            · exact .inr below
          · split <;> exact .inr h

theorem Cursor.step_bottom (braces : Braces) {k : Cursor} (c : Char)
    (h : k.nest.getLast? = some .group) :
    ((k.step braces c).nest = [] ∧ c = ')') ∨ (k.step braces c).nest.getLast? = some .group := by
  rcases step_cases braces k c with alone | ⟨pending, -, claimed⟩
  · rw [alone]
    exact read_bottom braces c h
  · rw [claimed]
    exact .inr h

/-- What closes a group for the first time at its end ends with a `)`. -/
theorem eq_append_close {braces : Braces} {k : Cursor} {cs : List Char}
    (bottom : k.nest.getLast? = some .group) (h : closesAtEnd braces k cs = true) :
    ∃ us, cs = us ++ [')'] := by
  induction cs generalizing k with
  | nil => cases h
  | cons c rest ih =>
    rw [closesAtEnd] at h
    rcases Cursor.step_bottom braces c bottom with ⟨closed, rfl⟩ | deeper
    · rw [if_pos closed, List.isEmpty_iff] at h
      exact ⟨[], by rw [h, List.nil_append]⟩
    · rw [if_neg (by intro closed; rw [closed] at deeper; cases deeper)] at h
      obtain ⟨us, rfl⟩ := ih deeper h
      exact ⟨c :: us, rfl⟩

/-- A wrapped text is an inner text between parentheses that have a number. -/
theorem eq_of_isWrapped {text : String} (h : isWrapped text = true) :
    ∃ us, text.toList = '(' :: (us ++ [')']) ∧ us.head? ≠ some '?' := by
  unfold isWrapped at h
  split at h
  · next c rest chars =>
    simp only [ne_eq, decide_not, Bool.and_eq_true, Bool.not_eq_true', decide_eq_false_iff_not] at h
    obtain ⟨us, body⟩ := eq_append_close rfl h.2
    refine ⟨us, by rw [chars, body], ?_⟩
    cases us with
    | nil => simp
    | cons d us =>
      obtain ⟨rfl, -⟩ := List.cons.inj body
      simpa using h.1
  · cases h

end Regex

namespace GroupStyle

variable {α : Type} {styles : List (Nat × GroupStyle α)}

theorem innerText_eq {text : String} {us : List Char} (h : text.toList = '(' :: (us ++ [')'])) :
    innerText text = String.ofList us := by
  simp [innerText, h]

theorem not_mem_of_lookup {n : Nat} (h : styles.lookup n = none) (style : GroupStyle α) :
    (n, style) ∉ styles := by
  intro mem
  simpa using List.lookup_eq_none_iff.1 h _ mem

theorem isElidable_iff {text : String} {styles : List (Nat × GroupStyle α)} :
    isElidable text styles = true ↔ (∃ style, styles.lookup 1 = some style ∧ style.scopes ≠ []) ∧
      styles.lookup 0 = none ∧ Regex.isWrapped text = true ∧ Regex.hasBackreference text = false := by
  simp [isElidable, Option.any_eq_true, and_assoc]

/-- Either nothing changes, or the group around the text has a style, the whole match has none, and
what is left is the inner text and the other styles one number lower. -/
theorem elide_cases (allowed : Bool) (text : String) (styles : List (Nat × GroupStyle α)) :
    elide allowed text styles = (text, styles) ∨
      ∃ us style, text.toList = '(' :: (us ++ [')']) ∧ us.head? ≠ some '?' ∧ (1, style) ∈ styles ∧
        (∀ style', (0, style') ∉ styles) ∧
        elide allowed text styles = (String.ofList us, styles.map fun g => (g.1 - 1, g.2)) := by
  unfold elide
  split
  · next elided =>
    simp only [isElidable, Bool.and_eq_true, Option.any_eq_true, Option.isNone_iff_eq_none] at elided
    obtain ⟨-, ⟨⟨⟨style, first, -⟩, whole⟩, wrapped⟩, -⟩ := elided
    obtain ⟨us, chars, head⟩ := Regex.eq_of_isWrapped wrapped
    refine .inr ⟨us, style, chars, head, NameMap.mem_of_lookup first, not_mem_of_lookup whole, ?_⟩
    rw [innerText_eq chars]
  · exact .inl rfl

/-- Without a style of the whole match the other styles can move down by one. -/
theorem pred_increasing (increasing : styles.Pairwise fun a b => a.1 < b.1)
    (whole : ∀ style, (0, style) ∉ styles) :
    (styles.map fun g => (g.1 - 1, g.2)).Pairwise fun a b => a.1 < b.1 := by
  refine List.pairwise_map.2 (increasing.imp_of_mem ?_)
  rintro ⟨n, style⟩ ⟨m, _⟩ mem _ lt
  have pos : n ≠ 0 := by
    rintro rfl
    exact whole style mem
  simp only at lt ⊢
  omega

/-- Without a style of the whole match, lowering the numbers keeps what is found under each. -/
theorem lookup_pred (whole : ∀ style, (0, style) ∉ styles) (k : Nat) :
    (styles.map fun g => (g.1 - 1, g.2)).lookup k = styles.lookup (k + 1) := by
  induction styles with
  | nil => rfl
  | cons g styles ih =>
    obtain ⟨n, style⟩ := g
    obtain ⟨m, rfl⟩ : ∃ m, n = m + 1 := by
      apply Nat.exists_eq_succ_of_ne_zero
      rintro rfl
      exact whole style List.mem_cons_self
    have rest := ih fun style mem => whole style (List.mem_cons_of_mem _ mem)
    rw [List.map_cons, List.lookup_cons, List.lookup_cons, rest]
    simp

theorem mem_pred_iff (whole : ∀ style, (0, style) ∉ styles) {k : Nat} {style : GroupStyle α} :
    (k, style) ∈ styles.map (fun g => (g.1 - 1, g.2)) ↔ (k + 1, style) ∈ styles := by
  simp only [List.mem_map, Prod.exists, Prod.mk.injEq]
  constructor
  · rintro ⟨n, _, mem, rfl, rfl⟩
    have nonzero : n ≠ 0 := by
      rintro rfl
      exact whole _ mem
    rwa [Nat.sub_add_cancel (Nat.one_le_iff_ne_zero.2 nonzero)]
  · intro mem
    exact ⟨k + 1, style, mem, rfl, rfl⟩

end GroupStyle

end TextMate
