import TextMate.Proofs.Elision

/-!
# Leaving out the outer group of any text

A raw regex may hold brackets and braces that do not match. The test for an outer group reads its braces as
literals and the count of the groups reads them as intervals, so the two may differ on what is open where.
They agree on what counts here: the outer parenthesis opens the first group, and every other group opens
at the same parenthesis with or without it (`captureStarts_group`). So nothing is lost with the outer
group, whatever the text and whatever the styles (`elide_keepsGroups`).
-/

set_option autoImplicit false

namespace TextMate

namespace Regex

/-- The offset at which the group `k` of `text` opens. Numbers start with 1. -/
def groupStart? (text : String) (k : Nat) : Option Nat :=
  (captureStarts text)[k - 1]?

/-- Behind `n` more characters the groups open `n` characters later. -/
theorem captureStartsFrom_add (k : Cursor) (i n : Nat) (cs : List Char) :
    captureStartsFrom k (i + n) cs = (captureStartsFrom k i cs).map (· + n) := by
  induction cs generalizing k i with
  | nil => rfl
  | cons c rest ih =>
    rw [captureStartsFrom, captureStartsFrom, Nat.add_right_comm, ih]
    split <;> rfl

/-- The group around a text opens first, and all others where they open in the text. -/
theorem captureStarts_group {text : String} {us : List Char}
    (chars : text.toList = '(' :: (us ++ [')'])) (head : us.head? ≠ some '?') :
    captureStarts text = 0 :: (captureStarts (String.ofList us)).map (· + 1) := by
  have inside : ((us.zipIdx 1).map Prod.fst).head? ≠ some '?' := by
    rwa [List.zipIdx_map_fst]
  rw [captureStarts, captureStarts, chars, String.toList_ofList, ← captureStartsFrom_add,
    ← openings_zipIdx, ← openings_zipIdx, List.zipIdx_cons, List.zipIdx_append]
  exact openings_numbered (us.zipIdx 1) _ _ inside

end Regex

/-- The cuts beside two parentheses of one byte each are between characters. -/
theorem isValid_cuts (u : String) :
    String.Pos.Raw.IsValid ("(" ++ u ++ ")") ⟨1⟩ ∧
      String.Pos.Raw.IsValid ("(" ++ u ++ ")") ⟨("(" ++ u ++ ")").utf8ByteSize - 1⟩ := by
  constructor
  · exact String.Pos.Raw.isValid_iff_exists_append.2 ⟨"(", u ++ ")", String.append_assoc .., rfl⟩
  · refine String.Pos.Raw.isValid_iff_exists_append.2 ⟨"(" ++ u, ")", rfl, ?_⟩
    rw [String.utf8ByteSize_append]
    rfl

/-- The bytes between the parentheses are those of the text between them. -/
theorem extract_bytes (u : String) :
    ("(" ++ u ++ ")").toByteArray.extract 1 (("(" ++ u ++ ")").utf8ByteSize - 1) = u.toByteArray := by
  have first : "(".toByteArray.size = 1 := rfl
  have last : ("(" ++ u ++ ")").utf8ByteSize - 1 = ("(" ++ u).toByteArray.size := by
    rw [String.utf8ByteSize_append]
    rfl
  have front : "(".toByteArray.extract 1 (1 + u.toByteArray.size) = .empty := by
    rw [ByteArray.extract_eq_empty_iff, first]
    exact Nat.min_le_right ..
  rw [last, String.toByteArray_append, ByteArray.extract_append_size_left,
    String.toByteArray_append, ByteArray.size_append, first, ByteArray.extract_append, first, front,
    ByteArray.empty_append, Nat.sub_self, Nat.add_sub_cancel_left, ByteArray.extract_zero_size]

namespace GroupStyle

variable {α : Type} {allowed : Bool} {text : String} {styles : List (Nat × GroupStyle α)}

/-- The group around the text may be left out: it is there for its scopes only. -/
structure IsSpare (allowed : Bool) (text : String) (styles : List (Nat × GroupStyle α)) : Prop where
  allowed : allowed = true
  highlighted : ∃ style, styles.lookup 1 = some style ∧ style.scopes ≠ []
  whole : styles.lookup 0 = none
  wrapped : Regex.isWrapped text = true
  unreferenced : Regex.hasBackreference text = false

/-- What a text and its styles become without the group around the text. -/
structure Unwrapped (text : String) (styles : List (Nat × GroupStyle α))
    (e : String × List (Nat × GroupStyle α)) : Prop where
  parts : text = "(" ++ e.1 ++ ")"
  cuts : String.Pos.Raw.IsValid text ⟨1⟩ ∧ String.Pos.Raw.IsValid text ⟨text.utf8ByteSize - 1⟩
  bytes : text.toByteArray.extract 1 (text.utf8ByteSize - 1) = e.1.toByteArray
  /-- The whole match has no style, so every number is above 0 and can be lowered. -/
  whole : styles.lookup 0 = none
  above : ∀ k style, (k, style) ∈ styles → 1 ≤ k
  entries : ∀ k style, (k, style) ∈ e.2 ↔ (k + 1, style) ∈ styles
  lookup : ∀ k, e.2.lookup k = styles.lookup (k + 1)
  increasing : (styles.Pairwise fun a b => a.1 < b.1) → e.2.Pairwise fun a b => a.1 < b.1
  /-- A group keeps its parenthesis, which is one character further to the left. -/
  starts : ∀ k, 1 ≤ k → Regex.groupStart? text (k + 1) = (Regex.groupStart? e.1 k).map (· + 1)
  outermost : Regex.groupStart? text 1 = some 0

theorem isSpare_iff : IsSpare allowed text styles ↔ (allowed && isElidable text styles) = true := by
  rw [Bool.and_eq_true, isElidable_iff]
  constructor
  · intro h
    exact ⟨h.allowed, h.highlighted, h.whole, h.wrapped, h.unreferenced⟩
  · rintro ⟨allowed, highlighted, whole, wrapped, unreferenced⟩
    exact ⟨allowed, highlighted, whole, wrapped, unreferenced⟩

theorem unwrapped_of_isSpare (h : IsSpare allowed text styles) :
    Unwrapped text styles (elide allowed text styles) := by
  obtain ⟨us, chars, head⟩ := Regex.eq_of_isWrapped h.wrapped
  have whole := not_mem_of_lookup h.whole
  have elided : elide allowed text styles =
      (String.ofList us, styles.map fun g => (g.1 - 1, g.2)) := by
    rw [elide, if_pos (isSpare_iff.1 h), innerText_eq chars]
  have parts : text = "(" ++ String.ofList us ++ ")" := by
    rw [← String.toList_inj, chars]
    simp
  have starts := Regex.captureStarts_group chars head
  rw [elided]
  refine ⟨parts, ?_, ?_, h.whole, ?_, ?_, lookup_pred whole, ?_, ?_, ?_⟩
  · rw [parts]
    exact isValid_cuts _
  · rw [parts]
    exact extract_bytes _
  · intro k style mem
    apply Nat.one_le_iff_ne_zero.2
    rintro rfl
    exact whole style mem
  · intro k style
    exact mem_pred_iff whole
  · intro increasing
    exact pred_increasing increasing whole
  · intro k pos
    obtain ⟨n, rfl⟩ := Nat.exists_eq_add_of_le' pos
    simp only [Regex.groupStart?, starts, Nat.add_sub_cancel, List.getElem?_cons_succ,
      List.getElem?_map]
  · rw [Regex.groupStart?, starts]
    rfl

/-- For every text and all styles, the group around the text is left out if it is spare, and then
every other group keeps its style. Otherwise nothing changes. -/
theorem elide_keepsGroups (allowed : Bool) (text : String) (styles : List (Nat × GroupStyle α)) :
    (IsSpare allowed text styles ∧ Unwrapped text styles (elide allowed text styles)) ∨
      (¬ IsSpare allowed text styles ∧ elide allowed text styles = (text, styles)) := by
  by_cases spare : IsSpare allowed text styles
  · exact .inl ⟨spare, unwrapped_of_isSpare spare⟩
  · refine .inr ⟨spare, ?_⟩
    rw [elide, if_neg (mt isSpare_iff.2 spare)]

/-- A brace that is never closed hides the last parenthesis from the count of the groups only. -/
example : Regex.isWrapped "((a)\x7b)" = true ∧ Regex.captureStarts "((a)\x7b)" = [0, 1] ∧
    Regex.captureStarts "(a)\x7b" = [0] := by
  decide

end GroupStyle

end TextMate
