import TextMate.Proofs.LetterCase
import TextMate.Text.Kebab

/-!
# The hyphens of a name in kebab case

A name in kebab case is the row of the lower-case forms of its letters and numbers (`joined`), with a
hyphen between two of them exactly if other characters are between them or the case of the characters
around them begins a word (`Parted`). The forms are not empty and have no hyphen, so no hyphen stands at an
end or next to another one.
-/

set_option autoImplicit false

namespace TextMate.Text

open Unicode

/-- The letters and numbers of `cs`, each with its place. The first character is at `start`. -/
def letters (cs : List Char) (start : Nat) : List (Char × Nat) :=
  (cs.zipIdx start).filter fun l => isAlphanumeric l.1

/-- Of two letters or numbers that follow on one another in `cs`, the second begins a word. -/
def Parted (cs : List Char) (a b : Char × Nat) : Prop :=
  (cs.extract (a.2 + 1) b.2).any (!isAlphanumeric ·) = true ∨
    isUppercase b.1 = true ∧ isLowercase a.1 = true ∨
    isUppercase b.1 = true ∧ a.1.isDigit = true ∨
    isUppercase a.1 = true ∧ isUppercase b.1 = true ∧ cs[b.2 + 1]?.any isLowercase = true

instance (cs : List Char) (a b : Char × Nat) : Decidable (Parted cs a b) :=
  inferInstanceAs (Decidable (_ ∨ _))

example : Parted "HTTPHeaders".toList ('P', 3) ('H', 4) := by
  decide

/-- The lower-case forms of letters of `cs`, with a hyphen between those that are parted. -/
def joined (cs : List Char) : List (Char × Nat) → List Char
  | [] => []
  | [a] => lowercaseForm a.1
  | a :: b :: rest =>
    lowercaseForm a.1 ++ (if Parted cs a b then ['-'] else []) ++ joined cs (b :: rest)

variable {cs : List Char} {c d before : Char}

theorem letters_of_letter (h : isAlphanumeric c = true) (cs : List Char) (start : Nat) :
    letters (c :: cs) start = (c, start) :: letters cs (start + 1) := by
  simp [letters, List.zipIdx_cons, h]

theorem letters_of_other (h : isAlphanumeric c = false) (cs : List Char) (start : Nat) :
    letters (c :: cs) start = letters cs (start + 1) := by
  simp [letters, List.zipIdx_cons, h]

theorem kebabAfter_of_letter (h : isAlphanumeric c = true) (before : Char) (cs : List Char) :
    kebabAfter before (c :: cs) =
      (if startsWord before c cs.head? then ['-'] else []) ++ (lowercaseForm c ++ kebabAfter c cs) := by
  rw [kebabAfter, if_pos h, List.append_assoc]

theorem kebabAfter_of_other (h : isAlphanumeric c = false) (before : Char) (cs : List Char) :
    kebabAfter before (c :: cs) = kebabAfter c cs := by
  rw [kebabAfter, if_neg (by simp [h])]

theorem kebabChars_of_letter (h : isAlphanumeric c = true) (cs : List Char) :
    kebabChars (c :: cs) = lowercaseForm c ++ kebabAfter c cs := by
  rw [kebabChars, List.dropWhile_cons_of_neg (by simp [h])]

theorem kebabChars_of_other (h : isAlphanumeric c = false) (cs : List Char) :
    kebabChars (c :: cs) = kebabChars cs := by
  rw [kebabChars, List.dropWhile_cons_of_pos (by simp [h])]
  rfl

section Joined

variable {front rest : List Char} {a : Char × Nat}

/-- The place of the last letter, if `before` was read last: it is `before`, or something else came since. -/
def IsLast (front : List Char) (before : Char) (a : Char × Nat) : Prop :=
  isAlphanumeric before = true ∧ a = (before, front.length) ∨
    isAlphanumeric before = false ∧ a.2 < front.length

theorem parted_iff (last : IsLast front before a) :
    Parted (front ++ before :: c :: rest) a (c, front.length + 1) ↔
      startsWord before c rest.head? = true := by
  have after : (front ++ before :: c :: rest)[front.length + 1 + 1]? = rest.head? := by
    have place : front.length + 1 + 1 - front.length = 2 := by omega
    rw [List.getElem?_append_right (by omega), place, List.head?_eq_getElem?]
    rfl
  obtain ⟨letter, rfl⟩ | ⟨other, earlier⟩ := last
  · have next : (front ++ before :: c :: rest).extract (front.length + 1) (front.length + 1) = [] := by
      simp [List.extract_eq_take_drop]
    simp only [Parted, next, after, startsWord, letter, List.any_nil, Bool.false_eq_true, false_or, Bool.not_true,
      Bool.false_or, Bool.and_eq_true, Bool.or_eq_true]
    tauto
  · have between : before ∈ (front ++ before :: c :: rest).extract (a.2 + 1) (front.length + 1) := by
      have length : front.length + 1 - (a.2 + 1) = (front.drop (a.2 + 1)).length + 1 := by
        rw [List.length_drop]
        omega
      rw [List.extract_eq_take_drop, List.drop_append_of_le_length earlier, length,
        List.take_length_add_append]
      exact List.mem_append_right _ (by simp)
    have separated : Parted (front ++ before :: c :: rest) a (c, front.length + 1) :=
      .inl (List.any_eq_true.2 ⟨before, between, by simp [other]⟩)
    exact iff_of_true separated (by simp [startsWord, other])

/-- The letters behind `before` are parted where `kebabAfter` writes a hyphen. -/
theorem joined_cons (last : IsLast front before a) :
    joined (front ++ before :: rest) (a :: letters rest (front.length + 1)) =
      lowercaseForm a.1 ++ kebabAfter before rest := by
  induction rest generalizing front before a with
  | nil => exact (List.append_nil _).symm
  | cons c rest ih =>
    have moved : front ++ before :: c :: rest = (front ++ [before]) ++ c :: rest := by simp
    have place : (front ++ [before]).length = front.length + 1 := by simp
    cases letter : isAlphanumeric c with
    | true =>
      have next : IsLast (front ++ [before]) c (c, front.length + 1) := .inl ⟨letter, by rw [place]⟩
      have tail := ih next
      rw [place, ← moved] at tail
      rw [letters_of_letter letter, joined, kebabAfter_of_letter letter, tail, List.append_assoc]
      simp only [parted_iff last]
    | false =>
      have earlier : a.2 < (front ++ [before]).length := by
        obtain ⟨-, rfl⟩ | ⟨-, earlier⟩ := last <;> rw [place] <;> omega
      have tail := ih (.inr ⟨letter, earlier⟩)
      rw [place, ← moved] at tail
      rw [letters_of_other letter, kebabAfter_of_other letter, tail]

theorem joined_letters (front rest : List Char) :
    joined (front ++ rest) (letters rest front.length) = kebabChars rest := by
  induction rest generalizing front with
  | nil => rfl
  | cons c rest ih =>
    cases letter : isAlphanumeric c with
    | true => rw [letters_of_letter letter, joined_cons (.inl ⟨letter, rfl⟩), kebabChars_of_letter letter]
    | false =>
      have tail := ih (front ++ [c])
      rw [List.append_assoc, List.length_append] at tail
      rw [letters_of_other letter, kebabChars_of_other letter]
      exact tail

end Joined

theorem isAlphanumeric_hyphen : isAlphanumeric '-' = false :=
  not_isAlphanumeric_of_other (by decide)

theorem lowercaseForm_ne_nil (c : Char) : lowercaseForm c ≠ [] := by
  obtain ⟨-, form⟩ | form | ⟨d, form, -⟩ := lowercaseForm_cases c <;> simp [form]

/-- No hyphen is in the form of a letter or a number. -/
theorem ne_hyphen_of_mem_lowercaseForm (h : isAlphanumeric c = true) (mem : d ∈ lowercaseForm c) :
    d ≠ '-' := by
  rintro rfl
  obtain letter | dot := mem_lowercaseForm h mem
  · exact Bool.false_ne_true (isAlphanumeric_hyphen.symm.trans letter)
  · exact absurd dot (by decide)

/-- What may stand behind a letter: there is no hyphen at its end and none next to another one. -/
structure IsTail (t : List Char) : Prop where
  trailing : t.getLast? ≠ some '-'
  doubled : t.IsChain fun c d => c ≠ '-' ∨ d ≠ '-'

theorem IsTail.letter {t : List Char} (h : IsTail t) (letter : isAlphanumeric c = true) :
    IsTail (lowercaseForm c ++ t) := by
  have plain : ∀ d ∈ lowercaseForm c, d ≠ '-' := fun d => ne_hyphen_of_mem_lowercaseForm letter
  have row : (lowercaseForm c).IsChain fun c d => c ≠ '-' ∨ d ≠ '-' :=
    (List.pairwise_of_forall_mem_list fun d hd _ _ => .inl (plain d hd)).isChain
  refine ⟨?_, List.isChain_append.2 ⟨row, h.doubled, ?_⟩⟩
  · intro last
    rw [List.getLast?_append, Option.or_eq_some_iff] at last
    obtain rest | ⟨-, last⟩ := last
    · exact h.trailing rest
    · exact plain _ (List.mem_of_getLast? last) rfl
  · intro d last _ _
    exact .inl (plain d (List.mem_of_getLast? last))

theorem head?_lowercaseForm_append_ne (letter : isAlphanumeric c = true) (t : List Char) :
    (lowercaseForm c ++ t).head? ≠ some '-' := by
  intro head
  rw [List.head?_append_of_ne_nil _ (lowercaseForm_ne_nil c)] at head
  exact ne_hyphen_of_mem_lowercaseForm letter (List.mem_of_head? head) rfl

theorem IsTail.hyphen {t : List Char} (h : IsTail t) (head : t.head? ≠ some '-') (nonempty : t ≠ []) :
    IsTail ('-' :: t) := by
  refine ⟨?_, List.isChain_cons.2 ⟨?_, h.doubled⟩⟩
  · rw [List.getLast?_cons_of_ne_nil nonempty]
    exact h.trailing
  · rintro d first
    exact .inr fun eq => head (eq ▸ first)

theorem isTail_kebabAfter (before : Char) (cs : List Char) : IsTail (kebabAfter before cs) := by
  induction cs generalizing before with
  | nil => exact ⟨by simp [kebabAfter], .nil⟩
  | cons c cs ih =>
    cases letter : isAlphanumeric c with
    | true =>
      have word := (ih c).letter letter
      rw [kebabAfter_of_letter letter]
      split
      · exact word.hyphen (head?_lowercaseForm_append_ne letter _) (by simp [lowercaseForm_ne_nil])
      · exact word
    | false =>
      rw [kebabAfter_of_other letter]
      exact ih c

theorem filter_lowercaseForm (letter : isAlphanumeric c = true) :
    (lowercaseForm c).filter (· ≠ '-') = lowercaseForm c :=
  List.filter_eq_self.2 fun _ mem => by simpa using ne_hyphen_of_mem_lowercaseForm letter mem

/-- Without its hyphens the text is the row of the forms. -/
theorem filter_kebabAfter (before : Char) (cs : List Char) :
    (kebabAfter before cs).filter (· ≠ '-') = (cs.filter isAlphanumeric).flatMap lowercaseForm := by
  induction cs generalizing before with
  | nil => rfl
  | cons c cs ih =>
    cases letter : isAlphanumeric c with
    | true =>
      rw [kebabAfter_of_letter letter, List.filter_append, List.filter_append, filter_lowercaseForm letter, ih,
        List.filter_cons_of_pos letter, List.flatMap_cons]
      split <;> rfl
    | false => rw [kebabAfter_of_other letter, ih, List.filter_cons_of_neg (by simp [letter])]

theorem filter_kebabChars (cs : List Char) :
    (kebabChars cs).filter (· ≠ '-') = (cs.filter isAlphanumeric).flatMap lowercaseForm := by
  induction cs with
  | nil => rfl
  | cons c cs ih =>
    cases letter : isAlphanumeric c with
    | true =>
      rw [kebabChars_of_letter letter, List.filter_append, filter_lowercaseForm letter, filter_kebabAfter,
        List.filter_cons_of_pos letter, List.flatMap_cons]
    | false => rw [kebabChars_of_other letter, ih, List.filter_cons_of_neg (by simp [letter])]

/-- Nothing is left of a text without letters and numbers; what is left of another starts with one. -/
theorem kebabChars_cases (cs : List Char) :
    (∀ c ∈ cs, isAlphanumeric c = false) ∧ kebabChars cs = [] ∨
      ∃ c ∈ cs, ∃ rest, isAlphanumeric c = true ∧ kebabChars cs = lowercaseForm c ++ kebabAfter c rest := by
  induction cs with
  | nil => exact .inl ⟨nofun, rfl⟩
  | cons c cs ih =>
    cases letter : isAlphanumeric c with
    | true => exact .inr ⟨c, List.mem_cons_self, cs, letter, kebabChars_of_letter letter cs⟩
    | false =>
      rw [kebabChars_of_other letter]
      obtain ⟨others, none⟩ | ⟨d, mem, rest, first, form⟩ := ih
      · exact .inl ⟨List.forall_mem_cons.2 ⟨letter, others⟩, none⟩
      · exact .inr ⟨d, List.mem_cons_of_mem c mem, rest, first, form⟩

theorem kebabChars_eq_nil_iff : kebabChars cs = [] ↔ ∀ c ∈ cs, isAlphanumeric c = false := by
  obtain ⟨others, none⟩ | ⟨c, mem, rest, letter, form⟩ := kebabChars_cases cs
  · exact iff_of_true none others
  · refine iff_of_false ?_ fun others => Bool.false_ne_true ((others c mem).symm.trans letter)
    rw [form]
    simp [lowercaseForm_ne_nil]

/-- A character of a text in kebab case is a hyphen or comes from a letter or a number. -/
theorem mem_kebabChars (mem : d ∈ kebabChars cs) :
    d = '-' ∨ ∃ c ∈ cs, isAlphanumeric c = true ∧ d ∈ lowercaseForm c := by
  by_cases hyphen : d = '-'
  · exact .inl hyphen
  · have left : d ∈ (kebabChars cs).filter (· ≠ '-') := List.mem_filter.2 ⟨mem, by simpa using hyphen⟩
    rw [filter_kebabChars, List.mem_flatMap] at left
    obtain ⟨c, letter, form⟩ := left
    exact .inr ⟨c, (List.mem_filter.1 letter).1, (List.mem_filter.1 letter).2, form⟩

/-- `t` is `cs` in kebab case. -/
structure IsKebab (cs t : List Char) : Prop where
  /-- Hyphens stand between parted letters and nowhere else. -/
  joined : t = joined cs (letters cs 0)
  /-- No letter and no number is lost. -/
  kept : t.filter (· ≠ '-') = (cs.filter isAlphanumeric).flatMap lowercaseForm
  leading : t.head? ≠ some '-'
  trailing : t.getLast? ≠ some '-'
  doubled : t.IsChain fun c d => c ≠ '-' ∨ d ≠ '-'

theorem isKebab_kebab (name : String) : IsKebab name.toList (kebab name).toList := by
  have chars : (kebab name).toList = kebabChars name.toList := String.toList_ofList
  rw [chars]
  have ends : (kebabChars name.toList).head? ≠ some '-' ∧ IsTail (kebabChars name.toList) := by
    obtain ⟨-, none⟩ | ⟨c, -, rest, letter, form⟩ := kebabChars_cases name.toList
    · rw [none]
      exact ⟨nofun, nofun, .nil⟩
    · rw [form]
      exact ⟨head?_lowercaseForm_append_ne letter _, (isTail_kebabAfter c rest).letter letter⟩
  exact ⟨(joined_letters [] name.toList).symm, filter_kebabChars name.toList, ends.1, ends.2.trailing,
    ends.2.doubled⟩

end TextMate.Text
