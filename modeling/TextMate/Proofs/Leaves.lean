import TextMate.Pattern.Blocks
import TextMate.Proofs.SelfContained

/-!
# Patterns with self-contained leaves

All the building blocks have self-contained leaves, and so has whatever is put together from such
patterns. Only a leaf that is taken as it is may be something else.
-/

set_option autoImplicit false

namespace TextMate.Pattern

/-- The texts of the leaves, from left to right. -/
def leaves : Pattern → List String
  | leaf text => [text]
  | sequence first second | alternation first second => first.leaves ++ second.leaves
  | repetition element _ _ | capture element _ _ | look _ element | tag element _ _ => element.leaves

/-- Every leaf is a self-contained text. -/
def SelfContained (p : Pattern) : Prop :=
  ∀ text ∈ p.leaves, Regex.SelfContained text.toList

instance (p : Pattern) : Decidable p.SelfContained :=
  inferInstanceAs (Decidable (∀ text ∈ p.leaves, Regex.SelfContained text.toList))

theorem selfContained_sequence {p q : Pattern} :
    (sequence p q).SelfContained ↔ p.SelfContained ∧ q.SelfContained :=
  List.forall_mem_append

theorem selfContained_alternation {p q : Pattern} :
    (alternation p q).SelfContained ↔ p.SelfContained ∧ q.SelfContained :=
  List.forall_mem_append

theorem selfContained_literal (text : String) : (literal text).SelfContained := by
  intro t ht
  obtain rfl : t = Regex.escape text := by simpa [literal, leaves] using ht
  exact .escape text

theorem selfContained_foldl {join : Pattern → Pattern → Pattern}
    (hj : ∀ p q : Pattern, p.SelfContained → q.SelfContained → (join p q).SelfContained)
    {p : Pattern} {ps : List Pattern} (hp : p.SelfContained) (hps : ∀ q ∈ ps, q.SelfContained) :
    (ps.foldl join p).SelfContained := by
  induction ps generalizing p with
  | nil => exact hp
  | cons q ps ih =>
    exact ih (hj p q hp (hps q (by simp))) fun r hr => hps r (by simp [hr])

theorem selfContained_inOrder {ps : List Pattern} (h : ∀ p ∈ ps, p.SelfContained) :
    (inOrder ps).SelfContained := by
  cases ps with
  | nil => decide
  | cons p ps =>
    exact selfContained_foldl (fun _ _ hp hq => selfContained_sequence.2 ⟨hp, hq⟩) (h p (by simp))
      fun q hq => h q (by simp [hq])

theorem selfContained_anyOf {ps : List Pattern} (h : ∀ p ∈ ps, p.SelfContained) :
    (anyOf ps).SelfContained := by
  cases ps with
  | nil => decide
  | cons p ps =>
    exact selfContained_foldl (fun _ _ hp hq => selfContained_alternation.2 ⟨hp, hq⟩)
      (h p (by simp)) fun q hq => h q (by simp [hq])

/-- The blocks that stand for a fixed text. -/
def blocks : List Pattern :=
  [space, whitespace, identifier, digit, wordBoundary, lineStart, lineEnd, anyChar]

theorem selfContained_blocks : ∀ p ∈ blocks, p.SelfContained := by
  decide

theorem selfContained_keywords (words : List String) : (keywords words).SelfContained := by
  have boundary : wordBoundary.SelfContained := selfContained_blocks _ (by decide)
  refine selfContained_inOrder fun p hp => ?_
  simp only [List.mem_cons, List.not_mem_nil, or_false] at hp
  rcases hp with rfl | rfl | rfl
  · exact boundary
  · refine selfContained_anyOf fun q hq => ?_
    obtain ⟨word, -, rfl⟩ := List.mem_map.1 hq
    exact selfContained_literal word
  · exact boundary

end TextMate.Pattern
