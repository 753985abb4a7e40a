import Mathlib.Data.Set.Card
import TextMate.Proofs.Braces

/-!
# The number of groups of any text

The parentheses that the scan counts are those that open a group in its own reading of the braces, each
counted once (`mem_captureStarts`). A regex engine takes a brace for a literal if it begins no interval,
so a text may hold a group that the scan passes over, or the other way round. Both agree on a text with
nothing but plain characters between its braces.
-/

set_option autoImplicit false

namespace TextMate.Regex

/-- At the offset `i` of `cs` stands a parenthesis that is neither escaped nor in a set, and no `?` comes
right behind it. -/
def OpensGroup (braces : Braces) (cs : List Char) (i : Nat) : Prop :=
  ∃ before behind, cs = before ++ '(' :: behind ∧ before.length = i ∧ Lexed braces before ∧
    behind.head? ≠ some '?'

variable {braces : Braces} {text : String} {i : Nat}

theorem getElem?_behind (before : List Char) (c : Char) (behind : List Char) :
    (before ++ c :: behind)[before.length + 1]? = behind.head? := by
  rw [List.getElem?_append_right (by omega), Nat.add_sub_cancel_left, List.getElem?_cons_succ,
    List.head?_eq_getElem?]

theorem opensGroup_iff {cs : List Char} : OpensGroup braces cs i ↔
    cs[i]? = some '(' ∧ Lexed braces (cs.take i) ∧ cs[i + 1]? ≠ some '?' := by
  constructor
  · rintro ⟨before, behind, rfl, rfl, lexed, head⟩
    rw [getElem?_behind]
    exact ⟨by simp, by simpa using lexed, head⟩
  · rintro ⟨paren, lexed, next⟩
    obtain ⟨lt, paren⟩ := List.getElem?_eq_some_iff.1 paren
    refine ⟨cs.take i, cs.drop (i + 1), ?_, List.length_take_of_le lt.le, lexed, ?_⟩
    · rw [← paren, List.getElem_cons_drop, List.take_append_drop]
    · rwa [List.head?_drop]

instance (cs : List Char) (i : Nat) : Decidable (OpensGroup braces cs i) :=
  decidable_of_iff _ opensGroup_iff.symm

theorem OpensGroup.lt {cs : List Char} (h : OpensGroup braces cs i) : i < cs.length :=
  (List.getElem?_eq_some_iff.1 (opensGroup_iff.1 h).1).1

/-- The scan counts a parenthesis at the offset where it reads it, and no offset twice. -/
theorem captureStartsFrom_sublist (k : Cursor) (i : Nat) (cs : List Char) :
    (captureStartsFrom k i cs).Sublist (List.range' i cs.length) := by
  induction cs generalizing k i with
  | nil => exact .refl _
  | cons c rest ih =>
    rw [captureStartsFrom, List.length_cons, List.range'_succ]
    split
    · exact (ih _ _).cons_cons i
    · exact (ih _ _).cons i

/-- The scan behind `done` counts the groups that open there. -/
theorem mem_captureStartsFrom (done rest : List Char) :
    i ∈ captureStartsFrom (Cursor.top.after .interval done) done.length rest ↔
      done.length ≤ i ∧ OpensGroup .interval (done ++ rest) i := by
  induction rest generalizing done with
  | nil =>
    refine iff_of_false List.not_mem_nil ?_
    rintro ⟨le, opens⟩
    rw [opensGroup_iff, List.append_nil, List.getElem?_eq_none le] at opens
    cases opens.1
  | cons c rest ih =>
    have later := ih (done ++ [c])
    rw [Cursor.after_append, List.length_append, List.append_assoc] at later
    -- What the scan asks of a character says that a group opens here.
    have here : OpensGroup .interval (done ++ c :: rest) done.length ↔
        ((Cursor.top.after .interval done).step .interval c).pending = .groupHead ∧
          rest.head? ≠ some '?' := by
      rw [opensGroup_iff, groupHead_iff, getElem?_behind]
      simp [and_assoc]
    rw [captureStartsFrom]
    split
    · next counted =>
      rw [List.mem_cons]
      constructor
      · rintro (rfl | mem)
        · exact ⟨le_rfl, here.2 counted⟩
        · exact ⟨Nat.le_of_succ_le (later.1 mem).1, (later.1 mem).2⟩
      · rintro ⟨le, opens⟩
        rcases Nat.eq_or_lt_of_le le with rfl | lt
        · exact .inl rfl
        · exact .inr (later.2 ⟨lt, opens⟩)
    · next uncounted =>
      constructor
      · intro mem
        exact ⟨Nat.le_of_succ_le (later.1 mem).1, (later.1 mem).2⟩
      · rintro ⟨le, opens⟩
        rcases Nat.eq_or_lt_of_le le with rfl | lt
        · exact absurd (here.1 opens) uncounted
        · exact later.2 ⟨lt, opens⟩

theorem mem_captureStarts : i ∈ captureStarts text ↔ OpensGroup .interval text.toList i := by
  rw [captureStarts]
  simpa using mem_captureStartsFrom (i := i) [] text.toList

theorem captureStarts_nodup (text : String) : (captureStarts text).Nodup :=
  (captureStartsFrom_sublist ..).nodup List.nodup_range'

/-- The scan reports the number of groups in its own reading of the braces. -/
theorem captureCount_eq_ncard (text : String) :
    captureCount text = {i | OpensGroup .interval text.toList i}.ncard := by
  have offsets : {i | OpensGroup .interval text.toList i} = ↑(captureStarts text).toFinset := by
    ext i
    simp [mem_captureStarts]
  rw [offsets, Set.ncard_coe_finset, List.toFinset_card_of_nodup (captureStarts_nodup text),
    captureCount]

/-- The same groups open in both readings of the braces if nothing between them opens, closes or escapes
anything. -/
theorem PlainBraces.opensGroup_iff {cs : List Char} (h : PlainBraces cs) :
    OpensGroup .interval cs i ↔ OpensGroup .literal cs i := by
  refine exists₂_congr fun before behind => and_congr_right fun split => ?_
  subst split
  rw [h.lexed_iff (by decide)]

/-- The scan reports how many groups open in its own reading of the braces, and that is how many there are
for a reader who takes braces for ordinary characters if nothing between them opens, closes or escapes
anything. -/
theorem captureCount_exact (text : String) :
    captureCount text = {i | OpensGroup .interval text.toList i}.ncard ∧
      (PlainBraces text.toList → captureCount text = {i | OpensGroup .literal text.toList i}.ncard) := by
  refine ⟨captureCount_eq_ncard text, fun plain => ?_⟩
  have same : {i | OpensGroup .interval text.toList i} = {i | OpensGroup .literal text.toList i} :=
    Set.ext fun i => plain.opensGroup_iff
  rw [captureCount_eq_ncard, same]

/-- Neither an interval nor parentheses that are escaped or in a set disturb the count. -/
theorem captureCount_besideInterval :
    PlainBraces "(a\x7b2,3\x7d)([(]\\(?:b)".toList ∧
      {i | OpensGroup .literal "(a\x7b2,3\x7d)([(]\\(?:b)".toList i}.ncard = 2 := by
  have plain : PlainBraces "(a\x7b2,3\x7d)([(]\\(?:b)".toList := by decide
  exact ⟨plain, ((captureCount_exact _).2 plain).symm.trans (by decide)⟩

/-- A brace that is never closed hides the group behind it from the scan. -/
theorem captureCount_behindBrace :
    captureCount "a\x7b(b)" = 0 ∧ {i | OpensGroup .literal "a\x7b(b)".toList i}.ncard = 1 := by
  have group : {i | OpensGroup .literal "a\x7b(b)".toList i} = {2} := by
    have each : ∀ i < 5, OpensGroup .literal "a\x7b(b)".toList i ↔ i = 2 := by decide
    ext i
    constructor
    · intro opens
      exact (each i opens.lt).1 opens
    · rintro rfl
      exact (each 2 (by decide)).2 rfl
  exact ⟨by decide, by rw [group, Set.ncard_singleton]⟩

/-- It also hides a set that is never closed, and then the scan counts a group in the set. -/
example : captureCount "\x7b[\x7d(a)" = 1 ∧ ¬ OpensGroup .literal "\x7b[\x7d(a)".toList 3 := by
  decide

end TextMate.Regex
