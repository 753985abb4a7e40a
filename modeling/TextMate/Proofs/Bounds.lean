import TextMate.Regex.Quantifier

/-!
# What a quantifier says

A quantifier is one of seven forms, and each form stands for a lower and an optional upper bound
(`Repeats`). No text stands for two pairs of bounds. The quantifier that is written for bounds stands for
them, and no shorter one does (`quantifier_denotes`).
-/

set_option autoImplicit false

namespace TextMate.Regex

/-- `cs` is a decimal numeral for `n`. There may be zeros in front. -/
structure IsNumeral (cs : List Char) (n : Nat) : Prop where
  nonempty : cs ≠ []
  digits : ∀ c ∈ cs, c.isDigit = true
  value : Nat.ofDigitChars 10 cs 0 = n

def inBraces (body : List Char) : List Char :=
  '{' :: (body ++ ['}'])

/-- The quantifier asks for at least so many repetitions, and for no more than the limit if there is one. -/
inductive Repeats : List Char → Nat → Option Nat → Prop where
  | star : Repeats ['*'] 0 none
  | plus : Repeats ['+'] 1 none
  | question : Repeats ['?'] 0 (some 1)
  | exactly {ds : List Char} {n : Nat} : IsNumeral ds n → Repeats (inBraces ds) n (some n)
  | atLeast {ds : List Char} {n : Nat} : IsNumeral ds n → Repeats (inBraces (ds ++ [','])) n none
  | atMost {es : List Char} {m : Nat} : IsNumeral es m → Repeats (inBraces (',' :: es)) 0 (some m)
  | between {ds es : List Char} {n m : Nat} :
      IsNumeral ds n → IsNumeral es m → Repeats (inBraces (ds ++ ',' :: es)) n (some m)

variable {cs ds : List Char} {n m min : Nat} {max : Option Nat}

section Numerals

theorem isNumeral_repr (n : Nat) : IsNumeral n.repr.toList n where
  nonempty := by simp
  digits c mem := by
    rw [Nat.toList_repr] at mem
    exact Nat.isDigit_of_mem_toDigits (by decide) (by decide) mem
  value := by rw [Nat.toList_repr, Nat.ofDigitChars_ten_toDigits]

theorem ofDigitChars_lt (digits : ∀ c ∈ ds, c.isDigit = true) :
    Nat.ofDigitChars 10 ds 0 < Nat.pow 10 ds.length := by
  induction ds with
  | nil => decide
  | cons c ds ih =>
    obtain ⟨digit, rest⟩ := List.forall_mem_cons.1 digits
    have small : c.toNat - '0'.toNat ≤ 9 := by
      have high : c.toNat ≤ 57 := by
        simp only [Char.isDigit, Bool.and_eq_true, decide_eq_true_eq] at digit
        exact digit.2
      exact Nat.sub_le_sub_right high 48
    have bound := ih rest
    rw [Nat.pow_eq] at bound ⊢
    rw [Nat.ofDigitChars_cons, Nat.ofDigitChars_eq_ofDigitChars_zero, List.length_cons, Nat.pow_succ,
      Nat.mul_zero, Nat.zero_add]
    have := Nat.mul_le_mul_left (10 ^ ds.length) small
    omega

/-- No numeral is shorter than the one without zeros in front. -/
theorem IsNumeral.length_repr_le (h : IsNumeral ds n) : n.repr.length ≤ ds.length := by
  rw [Nat.length_repr_le_iff (List.length_pos_iff.2 h.nonempty), ← h.value]
  exact ofDigitChars_lt h.digits

theorem IsNumeral.not_comma (h : IsNumeral ds n) : ∀ c ∈ ds, (c == ',') = false := by
  intro c mem
  rw [beq_eq_false_iff_ne]
  rintro rfl
  exact absurd (h.digits _ mem) (by decide)

end Numerals

/-- The bounds of an interval, read off the parts of its body between commas. -/
def partsBounds : List (List Char) → Option (Nat × Option Nat)
  | [ds] => some (Nat.ofDigitChars 10 ds 0, some (Nat.ofDigitChars 10 ds 0))
  | [ds, es] => some (Nat.ofDigitChars 10 ds 0, if es = [] then none else some (Nat.ofDigitChars 10 es 0))
  | _ => none

/-- Reads the bounds of a quantifier. -/
def bounds? : List Char → Option (Nat × Option Nat)
  | ['*'] => some (0, none)
  | ['+'] => some (1, none)
  | ['?'] => some (0, some 1)
  | '{' :: rest => partsBounds (rest.dropLast.splitOnP (· == ','))
  | _ => none

theorem bounds?_inBraces (body : List Char) :
    bounds? (inBraces body) = partsBounds (body.splitOnP (· == ',')) := by
  rw [inBraces, bounds?, List.dropLast_concat]

theorem splitOnP_comma (plain : ∀ c ∈ ds, (c == ',') = false) (es : List Char) :
    (ds ++ ',' :: es).splitOnP (· == ',') = ds :: es.splitOnP (· == ',') := by
  rw [List.splitOnP_append_cons (p := (· == ',')) ds es (by decide), List.splitOnP_eq_singleton plain]
  rfl

theorem bounds?_of_repeats (h : Repeats cs n max) : bounds? cs = some (n, max) := by
  cases h with
  | star | plus | question => rfl
  | exactly lower =>
    rw [bounds?_inBraces, List.splitOnP_eq_singleton lower.not_comma, partsBounds, lower.value]
  | atLeast lower =>
    rw [bounds?_inBraces, splitOnP_comma lower.not_comma, List.splitOnP_nil, partsBounds, lower.value]
    rfl
  | atMost upper =>
    rw [bounds?_inBraces, ← List.nil_append (',' :: _), splitOnP_comma (by simp),
      List.splitOnP_eq_singleton upper.not_comma, partsBounds, upper.value, if_neg upper.nonempty]
    rfl
  | between lower upper =>
    rw [bounds?_inBraces, splitOnP_comma lower.not_comma, List.splitOnP_eq_singleton upper.not_comma,
      partsBounds, lower.value, upper.value, if_neg upper.nonempty]

theorem Repeats.unique {min' : Nat} {max' : Option Nat} (h : Repeats cs min max)
    (h' : Repeats cs min' max') : min' = min ∧ max' = max := by
  have same := (bounds?_of_repeats h').symm.trans (bounds?_of_repeats h)
  simpa using same

theorem toList_braced (body : String) : (braced body).toList = inBraces body.toList := by
  simp [braced, inBraces]

/-- What is written for bounds stands for them. -/
theorem repeats_of_quantifier {text : String} (h : quantifier min max = .ok text) :
    Repeats text.toList min max := by
  cases max with
  | none =>
    simp only [quantifier, Except.ok.injEq] at h
    subst h
    split
    · next zero =>
      subst zero
      exact .star
    · split
      · next one =>
        subst one
        exact .plus
      · rw [toList_braced, String.toList_append]
        exact .atLeast (isNumeral_repr min)
  | some max =>
    simp only [quantifier] at h
    split at h
    · cases h
    · split at h
      · next same =>
        cases h
        subst same
        rw [toList_braced]
        exact .exactly (isNumeral_repr min)
      · split at h
        · next zero =>
          cases h
          subst zero
          split
          · next one =>
            subst one
            exact .question
          · rw [toList_braced, String.toList_append]
            exact .atMost (isNumeral_repr max)
        · cases h
          rw [toList_braced, String.toList_append, String.toList_append, List.append_assoc]
          exact .between (isNumeral_repr min) (isNumeral_repr max)

theorem length_inBraces (body : List Char) : (inBraces body).length = body.length + 2 := by
  simp [inBraces]

theorem length_braced (body : String) : (braced body).length = body.length + 2 := by
  rw [← String.length_toList, toList_braced, length_inBraces, String.length_toList]

/-- With an upper bound both numerals are written at most, and only one if the lower bound is zero. -/
theorem length_quantifier_some {text : String} {max : Nat} (h : quantifier min (some max) = .ok text) :
    text.length ≤ max.repr.length + 3 ∨
      min ≠ 0 ∧ text.length = min.repr.length + max.repr.length + 3 := by
  have comma : ",".length = 1 := by decide
  simp only [quantifier] at h
  split at h
  · cases h
  · split at h
    · next same =>
      cases h
      rw [length_braced, same]
      exact .inl (Nat.le_succ _)
    · split at h
      · cases h
        split
        · exact .inl (Nat.le_add_left 1 _)
        · rw [length_braced, String.length_append, comma]
          exact .inl (by omega)
      · next nonzero =>
        cases h
        rw [length_braced, String.length_append, String.length_append, comma]
        exact .inr ⟨nonzero, by omega⟩

/-- No quantifier for the same bounds is shorter. -/
theorem length_quantifier_le {text : String} (h : quantifier min max = .ok text)
    (other : Repeats cs min max) : text.length ≤ cs.length := by
  cases other with
  | star | plus | question =>
    cases h
    decide
  | exactly lower =>
    simp only [quantifier, Nat.lt_irrefl, if_false, if_true, Except.ok.injEq] at h
    subst h
    rw [length_braced, length_inBraces]
    exact Nat.add_le_add_right lower.length_repr_le 2
  | atLeast lower =>
    have short := lower.length_repr_le
    simp only [quantifier, Except.ok.injEq] at h
    subst h
    rw [length_inBraces, List.length_append]
    split
    · exact Nat.le_add_left 1 _
    · split
      · exact Nat.le_add_left 1 _
      · rw [length_braced, String.length_append]
        exact Nat.add_le_add_right (Nat.add_le_add_right short 1) 2
  | atMost upper =>
    have short := upper.length_repr_le
    rw [length_inBraces, List.length_cons]
    obtain long | ⟨nonzero, -⟩ := length_quantifier_some h
    · omega
    · exact absurd rfl nonzero
  | between lower upper =>
    have first := lower.length_repr_le
    have second := upper.length_repr_le
    rw [length_inBraces, List.length_append, List.length_cons]
    obtain long | ⟨-, long⟩ := length_quantifier_some h <;> omega

/-- What is written for bounds. -/
structure Denotes (min : Nat) (max : Option Nat) : Prop where
  /-- Nothing is written if the upper bound is below the lower one. -/
  fails : ∀ fault, quantifier min max = .error fault ↔
    ∃ m, max = some m ∧ m < min ∧ fault = .invertedBounds min m
  /-- Otherwise a text is written that stands for these bounds and no others. -/
  decodes : (∀ m, max = some m → min ≤ m) → ∃ text, quantifier min max = .ok text ∧
    (∀ n m, Repeats text.toList n m ↔ n = min ∧ m = max) ∧
    (∀ n m, quantifier n m = .ok text → n = min ∧ m = max) ∧
    ∀ cs, Repeats cs min max → text.length ≤ cs.length

/-- A quantifier denotes its bounds, and none that does is shorter. -/
theorem quantifier_denotes (min : Nat) (max : Option Nat) : Denotes min max where
  fails _ := quantifier_eq_error_iff
  decodes inOrder := by
    cases written : quantifier min max with
    | error fault =>
      obtain ⟨m, isMax, below, -⟩ := quantifier_eq_error_iff.1 written
      exact absurd below (Nat.not_lt.2 (inOrder m isMax))
    | ok text =>
      have stands := repeats_of_quantifier written
      have shortest : ∀ cs, Repeats cs min max → text.length ≤ cs.length :=
        fun _ => length_quantifier_le written
      refine ⟨text, rfl, fun n m => ⟨stands.unique, ?_⟩, fun n m same => ?_, shortest⟩
      · rintro ⟨rfl, rfl⟩
        exact stands
      · exact stands.unique (repeats_of_quantifier same)

example : bounds? ['{', '0', '2', ',', '1', '0', '}'] = some (2, some 10) := by
  decide

end TextMate.Regex
