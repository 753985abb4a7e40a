import Mathlib.Data.List.Chain
import Mathlib.Data.List.Sort
import TextMate.Unicode.Alphanumeric
import TextMate.Unicode.Blank
import TextMate.Unicode.Lowercase
import TextMate.Unicode.LowercaseForm
import TextMate.Unicode.Uppercase

/-!
# How the character tables fit together

The rows of a table are in increasing order, so two tables are compared in one sweep over both, and a fact
about all characters of two tables is one Boolean check on their rows (`tables_fit`). Lower-case characters
are letters, are not upper-case, and stay as they are when they are written in lower case. What a character
becomes is itself, another lower-case character, or, for one capital, a small i with a combining dot
(`lowercaseForm_cases`). The dot is all that writing letters and numbers in lower case can bring in that is
neither a letter nor a number (`mem_lowercaseForm`).
-/

set_option autoImplicit false

namespace TextMate.Unicode

namespace Run

/-- No code point of `r` comes after one of `s`, and none is in both. -/
def Before (r s : Run) : Prop :=
  r.first ≤ r.last ∧ r.last < s.first

instance (r s : Run) : Decidable (r.Before s) :=
  decidable_of_iff ((Nat.ble r.first r.last && Nat.blt r.last s.first) = true) (by simp [Before])

instance : Trans Before Before Before where
  trans := by
    intro r s t rs st
    exact ⟨rs.1, by have := rs.2; have := st.1; have := st.2; omega⟩

/-- Two runs that overlap have no code point in common: one is a single code point that the other skips, or
the two alternate. -/
def interleaves (r s : Run) : Bool :=
  Nat.beq r.first r.last && !s.has r.first || Nat.beq s.first s.last && !r.has s.first ||
    Nat.beq (r.stride % 2) 0 && Nat.beq (s.stride % 2) 0 && !Nat.beq (r.first % 2) (s.first % 2)

/-- All code points of `r` are in `s`. -/
def inside (r s : Run) : Bool :=
  Nat.ble r.last s.last && s.has r.first && (Nat.beq r.first r.last || Nat.beq (r.stride % s.stride) 0)

/-- The run at a distance. -/
def moved (r : Run) (shift : Int) : Run :=
  ⟨(r.first + shift).toNat, (r.last + shift).toNat, r.stride⟩

variable {r s : Run} {n : Nat}

theorem has_iff : r.has n = true ↔ r.first ≤ n ∧ n ≤ r.last ∧ r.stride ∣ n - r.first := by
  simp [has, Nat.dvd_iff_mod_eq_zero, and_assoc]

/-- In a run with an even stride all code points are even, or all are odd. -/
theorem mod_two_of_has (even : r.stride % 2 = 0) (h : r.has n = true) : n % 2 = r.first % 2 := by
  obtain ⟨low, -, step⟩ := has_iff.1 h
  have two : 2 ∣ n - r.first := Nat.dvd_trans (Nat.dvd_of_mod_eq_zero even) step
  omega

theorem not_has_of_interleaves (h : r.interleaves s = true) (mem : r.has n = true) :
    s.has n = false := by
  by_contra both
  rw [Bool.not_eq_false] at both
  simp only [interleaves, Bool.or_eq_true, Bool.and_eq_true, Nat.beq_eq, Bool.not_eq_true'] at h
  obtain (⟨single, skipped⟩ | ⟨single, skipped⟩) | ⟨⟨reven, seven⟩, parity⟩ := h
  · obtain ⟨low, high, -⟩ := has_iff.1 mem
    obtain rfl : n = r.first := by omega
    exact Bool.false_ne_true (skipped.symm.trans both)
  · obtain ⟨low, high, -⟩ := has_iff.1 both
    obtain rfl : n = s.first := by omega
    exact Bool.false_ne_true (skipped.symm.trans mem)
  · rw [← mod_two_of_has reven mem, ← mod_two_of_has seven both, Nat.beq_refl] at parity
    exact Bool.noConfusion parity

theorem has_of_inside (h : r.inside s = true) (mem : r.has n = true) : s.has n = true := by
  obtain ⟨low, high, step⟩ := has_iff.1 mem
  simp only [inside, Bool.and_eq_true, Bool.or_eq_true, Nat.ble_eq, Nat.beq_eq] at h
  obtain ⟨⟨below, first⟩, single | divides⟩ := h
  · obtain rfl : n = r.first := by omega
    exact first
  · obtain ⟨start, -, aligned⟩ := has_iff.1 first
    have split : n - s.first = r.first - s.first + (n - r.first) := by omega
    refine has_iff.2 ⟨by omega, by omega, ?_⟩
    rw [split]
    exact Nat.dvd_add aligned (Nat.dvd_trans (Nat.dvd_of_mod_eq_zero divides) step)

theorem has_moved {shift : Int} (h : 0 ≤ r.first + shift) (mem : r.has n = true) :
    (r.moved shift).has (n + shift).toNat = true := by
  obtain ⟨low, high, step⟩ := has_iff.1 mem
  have split : (n + shift).toNat - (r.first + shift).toNat = n - r.first := by omega
  refine has_iff.2 ⟨?_, ?_, ?_⟩ <;> simp only [moved]
  · omega
  · omega
  · rwa [split]

end Run

/-- The rows of a table stand in increasing order. -/
def Increasing (rs : List Run) : Prop :=
  rs.IsChain Run.Before

instance (rs : List Run) : Decidable (Increasing rs) :=
  inferInstanceAs (Decidable (List.IsChain _ rs))

/-- No character is in both tables. The rows of `ss` before the row at hand are not looked at again. -/
def apart (ss : List Run) : List Run → Bool
  | [] => true
  | r :: rs =>
    ((ss.dropWhile (Nat.blt ·.last r.first)).takeWhile (Nat.ble ·.first r.last)).all r.interleaves &&
      apart (ss.dropWhile (Nat.blt ·.last r.first)) rs

/-- Every row of `rs` is inside a row of the other table. The rows inside the row at hand are done. -/
def within (rs : List Run) : List Run → Bool
  | [] => rs.isEmpty
  | s :: ss => within (rs.dropWhile (·.inside s)) ss

section Tables

variable {rs ss : List Run} {c : Char}

/-- A row for which `p` fails is never dropped. -/
theorem mem_dropWhile_of_not {p : Run → Bool} {s : Run} (mem : s ∈ ss) (h : p s = false) :
    s ∈ ss.dropWhile p := by
  rw [← List.takeWhile_append_dropWhile (p := p) (l := ss), List.mem_append] at mem
  obtain front | rest := mem
  · exact absurd ((List.all_eq_true.1 List.all_takeWhile s front).symm.trans h) Bool.noConfusion
  · exact rest

theorem mem_takeWhile_of_increasing (increasing : Increasing ss) {s : Run} (mem : s ∈ ss) {n : Nat}
    (h : s.first ≤ n) : s ∈ ss.takeWhile (Nat.ble ·.first n) := by
  induction ss with
  | nil => cases mem
  | cons t ss ih =>
    have before := (List.pairwise_cons.1 increasing.pairwise).1
    have first : t.first ≤ n := by
      obtain rfl | rest := List.mem_cons.1 mem
      · exact h
      · have := (before _ rest).1
        have := (before _ rest).2
        omega
    rw [List.takeWhile_cons_of_pos (by simpa using first)]
    obtain rfl | rest := List.mem_cons.1 mem
    · exact List.mem_cons_self
    · exact List.mem_cons_of_mem _ (ih increasing.tail rest)

theorem not_inRuns_of_apart (rincreasing : Increasing rs) (sincreasing : Increasing ss)
    (h : apart ss rs = true) (mem : inRuns rs c = true) : inRuns ss c = false := by
  rw [Bool.eq_false_iff, Ne, inRuns_iff]
  rintro ⟨s, hs, both⟩
  obtain ⟨r, hr, has⟩ := inRuns_iff.1 mem
  obtain ⟨slow, shigh, -⟩ := Run.has_iff.1 both
  obtain ⟨rlow, rhigh, -⟩ := Run.has_iff.1 has
  induction rs generalizing ss with
  | nil => cases hr
  | cons t rs ih =>
    rw [apart, Bool.and_eq_true] at h
    have before := (List.pairwise_cons.1 rincreasing.pairwise).1
    have late : ¬ s.last < t.first := by
      obtain rfl | rest := List.mem_cons.1 hr
      · omega
      · have := (before _ rest).1
        have := (before _ rest).2
        omega
    have left := mem_dropWhile_of_not (p := (Nat.blt ·.last t.first)) hs <| by
      rw [Bool.eq_false_iff]
      simpa using late
    have dropped : Increasing (ss.dropWhile (Nat.blt ·.last t.first)) :=
      sincreasing.sublist (List.dropWhile_sublist _)
    obtain rfl | rest := List.mem_cons.1 hr
    · have close := mem_takeWhile_of_increasing dropped left (n := r.last) (by omega)
      have skips := Run.not_has_of_interleaves (List.all_eq_true.1 h.1 s close) has
      exact Bool.false_ne_true (skips.symm.trans both)
    · exact ih rincreasing.tail dropped h.2 (inRuns_iff.2 ⟨r, rest, has⟩) left rest

/-- Whatever is in a row of the inner table is in a row of the outer one. -/
theorem has_of_within {n : Nat} (h : within rs ss = true) {r : Run} (hr : r ∈ rs) (has : r.has n = true) :
    ∃ s ∈ ss, s.has n = true := by
  induction ss generalizing rs with
  | nil => exact absurd hr (by simp [List.isEmpty_iff.1 h])
  | cons s ss ih =>
    obtain inside | later := Bool.eq_false_or_eq_true (r.inside s)
    · exact ⟨s, List.mem_cons_self, Run.has_of_inside inside has⟩
    · obtain ⟨t, ht, found⟩ := ih h (mem_dropWhile_of_not hr later)
      exact ⟨t, List.mem_cons_of_mem _ ht, found⟩

theorem inRuns_of_within (h : within rs ss = true) (mem : inRuns rs c = true) : inRuns ss c = true := by
  obtain ⟨r, hr, has⟩ := inRuns_iff.1 mem
  exact inRuns_iff.2 (has_of_within h hr has)

end Tables

/-- The runs of characters that move to their lower-case forms. -/
def shiftSources : List Run :=
  lowercaseShifts.map Prod.fst

/-- The runs that they move to, in increasing order. -/
def shiftTargets : List Run :=
  (lowercaseShifts.map fun row => row.1.moved row.2).insertionSort fun r s => r.first ≤ s.first

/-- The hyphen, the dot and the combining dot. -/
def otherRuns : List Run :=
  [⟨45, 46, 1⟩, ⟨775, 775, 1⟩]

/-- How the tables fit together. -/
structure Fit : Prop where
  increasing : ∀ rs ∈ [alphanumericRuns, lowercaseRuns, uppercaseRuns, blankRuns, shiftSources, otherRuns],
    Increasing rs
  lowercase_within : within lowercaseRuns alphanumericRuns = true
  targets_within : within shiftTargets lowercaseRuns = true
  uppercase_apart : apart uppercaseRuns lowercaseRuns = true
  sources_apart : apart shiftSources lowercaseRuns = true
  blank_apart : apart alphanumericRuns blankRuns = true
  others_apart : apart alphanumericRuns otherRuns = true
  others_unmoved : apart shiftSources otherRuns = true
  /-- Nothing moves below zero. -/
  nonneg : ∀ row ∈ lowercaseShifts, 0 ≤ row.1.first + row.2
  /-- The code points of lower-case characters are valid. -/
  valid : ∀ r ∈ lowercaseRuns, r.last < 0xd800 ∨ 0xdfff < r.first ∧ r.last < 0x110000
  dotted : isAlphanumeric '\u0130' = true ∧ isUppercase '\u0130' = true

instance : Decidable Fit :=
  decidable_of_iff (_ ∧ _ ∧ _ ∧ _ ∧ _ ∧ _ ∧ _ ∧ _ ∧ _ ∧ _ ∧ _)
    ⟨by
      rintro ⟨order, lower, targets, upper, sources, blank, apart, unmoved, nonneg, valid, dotted⟩
      exact ⟨order, lower, targets, upper, sources, blank, apart, unmoved, nonneg, valid, dotted⟩,
    fun h => ⟨h.increasing, h.lowercase_within, h.targets_within, h.uppercase_apart, h.sources_apart,
      h.blank_apart, h.others_apart, h.others_unmoved, h.nonneg, h.valid, h.dotted⟩⟩

theorem tables_fit : Fit := by
  decide +kernel

variable {c d : Char}

theorem isAlphanumeric_of_isLowercase (h : isLowercase c = true) : isAlphanumeric c = true :=
  inRuns_of_within tables_fit.lowercase_within h

theorem not_isUppercase_of_isLowercase (h : isLowercase c = true) : isUppercase c = false :=
  not_inRuns_of_apart (tables_fit.increasing lowercaseRuns (by simp))
    (tables_fit.increasing uppercaseRuns (by simp)) tables_fit.uppercase_apart h

theorem not_isBlank_of_isAlphanumeric (h : isAlphanumeric c = true) : isBlank c = false := by
  rw [Bool.eq_false_iff]
  intro blank
  have other := not_inRuns_of_apart (tables_fit.increasing blankRuns (by simp))
    (tables_fit.increasing alphanumericRuns (by simp)) tables_fit.blank_apart blank
  exact Bool.false_ne_true (other.symm.trans h)

theorem not_isAlphanumeric_of_other (other : inRuns otherRuns c = true) : isAlphanumeric c = false :=
  not_inRuns_of_apart (tables_fit.increasing otherRuns (by simp))
    (tables_fit.increasing alphanumericRuns (by simp)) tables_fit.others_apart other

/-- The code points of lower-case characters are valid. -/
theorem toNat_ofNat_of_has {r : Run} {n : Nat} (mem : r ∈ lowercaseRuns) (h : r.has n = true) :
    (Char.ofNat n).toNat = n := by
  obtain ⟨low, high, -⟩ := Run.has_iff.1 h
  have valid : n.isValidChar := by
    have := tables_fit.valid r mem
    unfold Nat.isValidChar
    omega
  rw [Char.ofNat, dif_pos valid]
  rfl

/-- What a row moves is lower-case at its new place. -/
theorem isLowercase_of_shift {row : Run × Int} (mem : row ∈ lowercaseShifts) (h : row.1.has c.toNat = true) :
    isLowercase (Char.ofNat (c.toNat + row.2).toNat) = true := by
  have target : row.1.moved row.2 ∈ shiftTargets := by
    rw [shiftTargets, List.mem_insertionSort]
    exact List.mem_map_of_mem (f := fun row : Run × Int => row.1.moved row.2) mem
  have has := Run.has_moved (tables_fit.nonneg row mem) h
  obtain ⟨r, hr, found⟩ := has_of_within tables_fit.targets_within target has
  refine inRuns_iff.2 ⟨r, hr, ?_⟩
  rwa [toNat_ofNat_of_has hr found]

/-- A character that no row moves is its own lower-case form. -/
theorem lowercaseForm_of_unmoved (dotted : c ≠ '\u0130') (unmoved : inRuns shiftSources c = false) :
    lowercaseForm c = [c] := by
  have none : lowercaseShifts.find? (fun row => row.1.has c.toNat) = none := by
    rw [List.find?_eq_none]
    intro row mem has
    have source : row.1 ∈ shiftSources := List.mem_map_of_mem mem
    exact Bool.false_ne_true (unmoved.symm.trans (inRuns_iff.2 ⟨row.1, source, has⟩))
  have shift : lowercaseShift c = 0 := by rw [lowercaseShift, none]; rfl
  rw [lowercaseForm, if_neg dotted, shift]
  simp

/-- A lower-case character is its own lower-case form. -/
theorem lowercaseForm_of_isLowercase (h : isLowercase c = true) : lowercaseForm c = [c] := by
  have dotted : c ≠ '\u0130' := by
    rintro rfl
    exact Bool.false_ne_true ((not_isUppercase_of_isLowercase h).symm.trans tables_fit.dotted.2)
  exact lowercaseForm_of_unmoved dotted <|
    not_inRuns_of_apart (tables_fit.increasing lowercaseRuns (by simp))
      (tables_fit.increasing shiftSources (by simp))
      tables_fit.sources_apart h

theorem lowercaseForm_of_other (other : inRuns otherRuns c = true) : lowercaseForm c = [c] := by
  have dotted : c ≠ '\u0130' := by
    rintro rfl
    exact Bool.false_ne_true ((not_isAlphanumeric_of_other other).symm.trans tables_fit.dotted.1)
  exact lowercaseForm_of_unmoved dotted <|
    not_inRuns_of_apart (tables_fit.increasing otherRuns (by simp))
      (tables_fit.increasing shiftSources (by simp)) tables_fit.others_unmoved other

theorem isLowercase_i : isLowercase 'i' = true := by
  decide

/-- A character becomes two characters, or it stays, or it becomes a lower-case character. -/
theorem lowercaseForm_cases (c : Char) :
    c = '\u0130' ∧ lowercaseForm c = ['i', '\u0307'] ∨ lowercaseForm c = [c] ∨
      ∃ d, lowercaseForm c = [d] ∧ isLowercase d = true := by
  by_cases dotted : c = '\u0130'
  · exact .inl ⟨dotted, if_pos dotted⟩
  rw [lowercaseForm, if_neg dotted, lowercaseShift]
  cases found : lowercaseShifts.find? fun row => row.1.has c.toNat with
  | none => exact .inr (.inl (by simp))
  | some row =>
    have has := List.find?_some (p := fun row : Run × Int => row.1.has c.toNat) found
    exact .inr (.inr ⟨_, rfl, isLowercase_of_shift (List.mem_of_find?_eq_some found) has⟩)

/-- The parts of the form of a letter or a number are letters and numbers, apart from one combining dot. -/
theorem mem_lowercaseForm (h : isAlphanumeric c = true) (mem : d ∈ lowercaseForm c) :
    isAlphanumeric d = true ∨ d = '\u0307' := by
  obtain ⟨-, form⟩ | form | ⟨e, form, lower⟩ := lowercaseForm_cases c <;> rw [form] at mem
  · obtain rfl | rfl : d = 'i' ∨ d = '\u0307' := by simpa using mem
    · exact .inl (isAlphanumeric_of_isLowercase isLowercase_i)
    · exact .inr rfl
  · obtain rfl := List.mem_singleton.1 mem
    exact .inl h
  · obtain rfl := List.mem_singleton.1 mem
    exact .inl (isAlphanumeric_of_isLowercase lower)

end TextMate.Unicode
