import TextMate.Proofs.Segments

/-!
# Names that are put in kebab case again

Kebab case looks at the case of neighbours, and lower case takes it away from some of them only. A capital
that has no lower-case form keeps its case, so it may begin a word in the new text where it was inside one
in the name. The combining dot of one lower-case form is no letter and gets lost. Those are all the
reasons for which a name in kebab case changes when it is put in kebab case again (`kebab_again`), and after
that nothing changes any more.
-/

set_option autoImplicit false

namespace TextMate.Text

open Unicode

/-- `b`, right behind `a`, belongs to the word of `a`. -/
def continues (a b : Char) (after? : Option Char) : Bool :=
  isAlphanumeric b && !startsWord a b after?

/-- Writing in lower case makes something else of `c`. -/
def changes (c : Char) : Bool :=
  decide (lowercaseForm c ≠ [c])

/-- The capital `b`, right behind `a` in one word, stays a capital and begins a word in the new text: a
small letter comes before it there, or a capital before it and a small letter behind it. -/
def Splits (a b : Char) (rest : List Char) : Prop :=
  continues a b rest.head? = true ∧ isUppercase b = true ∧ changes b = false ∧
    (changes a = true ∨
      isUppercase a = true ∧ ∃ c ∈ rest.head?, continues b c rest.tail.head? = true ∧ changes c = true)

/-- The kebab case of `cs` is in kebab case. -/
structure Lasts (cs : List Char) : Prop where
  undotted : '\u0130' ∉ cs
  whole : ∀ a b rest, a :: b :: rest <:+ cs → ¬ Splits a b rest

variable {cs : List Char} {a b c d before : Char}

theorem changes_eq_false_iff : changes c = false ↔ lowercaseForm c = [c] := by
  simp [changes]

/-- What stands in the new text for `c`: `c` itself, or the small letter that `c` becomes. -/
def IsForm (c d : Char) : Prop :=
  changes c = false ∧ d = c ∨ changes c = true ∧ isLowercase d = true

/-- Without the dotted capital every form is one character, which is its own form. -/
theorem exists_form (h : c ≠ '\u0130') :
    ∃ d, lowercaseForm c = [d] ∧ lowercaseForm d = [d] ∧ IsForm c d := by
  obtain ⟨dotted, -⟩ | form | ⟨d, form, lower⟩ := lowercaseForm_cases c
  · exact absurd dotted h
  · exact ⟨c, form, form, .inl ⟨by simp [changes, form], rfl⟩⟩
  · refine ⟨d, form, lowercaseForm_of_isLowercase lower, ?_⟩
    by_cases same : d = c
    · exact .inl ⟨by simp [changes, form, same], same⟩
    · exact .inr ⟨by simp [changes, form, same], lower⟩

/-- Behind something that is no letter a hyphen comes first. -/
theorem head?_kebabAfter_of_other (h : isAlphanumeric before = false) (cs : List Char) :
    ∀ x ∈ (kebabAfter before cs).head?, x = '-' := by
  induction cs generalizing before with
  | nil => exact nofun
  | cons c cs ih =>
    cases letter : isAlphanumeric c with
    | true =>
      have starts : startsWord before c cs.head? = true := by simp [startsWord, h]
      rw [kebabAfter_of_letter letter, if_pos starts]
      simp
    | false =>
      rw [kebabAfter_of_other letter]
      exact ih letter

/-- A small letter comes next in the new text if the word goes on with one, or with what becomes one. -/
theorem head?_kebabAfter_isLowercase (undotted : '\u0130' ∉ cs) (b : Char) :
    (kebabAfter b cs).head?.any isLowercase = true ↔
      ∃ c ∈ cs.head?, continues b c cs.tail.head? = true ∧ (isLowercase c = true ∨ changes c = true) := by
  have hyphen : isLowercase '-' = false := by
    rw [Bool.eq_false_iff]
    intro lower
    exact Bool.false_ne_true (isAlphanumeric_hyphen.symm.trans (isAlphanumeric_of_isLowercase lower))
  cases cs with
  | nil => simp [kebabAfter]
  | cons c cs =>
    have here : c ≠ '\u0130' := fun dotted => undotted (dotted ▸ List.mem_cons_self)
    cases letter : isAlphanumeric c with
    | true =>
      obtain ⟨d, form, -, kind⟩ := exists_form here
      rw [kebabAfter_of_letter letter, form]
      cases starts : startsWord b c cs.head? with
      | true => simp [continues, starts, hyphen]
      | false =>
        obtain ⟨same, rfl⟩ | ⟨changed, lower⟩ := kind
        · simp [continues, starts, letter, same]
        · simp [continues, starts, letter, changed, lower]
    | false =>
      rw [kebabAfter_of_other letter]
      have first := head?_kebabAfter_of_other letter cs
      cases head : (kebabAfter c cs).head? with
      | none => simp [continues, letter]
      | some x =>
        obtain rfl := first x head
        simp [continues, letter, hyphen]

theorem IsForm.isAlphanumeric (h : IsForm c d) (letter : isAlphanumeric c = true) :
    isAlphanumeric d = true := by
  obtain ⟨-, rfl⟩ | ⟨-, lower⟩ := h
  · exact letter
  · exact isAlphanumeric_of_isLowercase lower

theorem startsWord_eq_false_iff (before c : Char) (after? : Option Char) :
    startsWord before c after? = false ↔ isAlphanumeric before = true ∧ (isUppercase c = true →
      isLowercase before = false ∧ before.isDigit = false ∧
        (isUppercase before = true → after?.any isLowercase = false)) := by
  simp [startsWord, and_assoc]

/-- Inside a word of the name, a word begins in the new text exactly where the word splits. -/
theorem startsWord_form_iff (undotted : '\u0130' ∉ cs) (inWord : continues before c cs.head? = true)
    (left : IsForm before a) (right : IsForm c d) :
    startsWord a d (kebabAfter c cs).head? = true ↔ Splits before c cs := by
  obtain ⟨letter, within⟩ : isAlphanumeric c = true ∧ startsWord before c cs.head? = false := by
    simpa [continues] using inWord
  obtain ⟨first, apart⟩ := (startsWord_eq_false_iff _ _ _).1 within
  have letters := left.isAlphanumeric first
  obtain ⟨same, rfl⟩ | ⟨changed, lower⟩ := right
  · cases capital : isUppercase d with
    | false => exact iff_of_false (by simp [startsWord, letters, capital]) (by simp [Splits, capital])
    | true =>
      obtain ⟨small, digit, next⟩ := apart capital
      obtain ⟨same', rfl⟩ | ⟨changed, lower⟩ := left
      · have begins : startsWord a d (kebabAfter d cs).head? = true ↔
            isUppercase a = true ∧ (kebabAfter d cs).head?.any isLowercase = true := by
          simp [startsWord, letters, capital, small, digit]
        rw [begins, head?_kebabAfter_isLowercase undotted]
        constructor
        · rintro ⟨upper, c, head, goesOn, lower | changed⟩
          · exact absurd lower (by simpa [Option.mem_def.1 head] using next upper)
          · exact ⟨inWord, capital, same, .inr ⟨upper, c, head, goesOn, changed⟩⟩
        · rintro ⟨-, -, -, changed | ⟨upper, c, head, goesOn, changed⟩⟩
          · exact absurd (same'.symm.trans changed) Bool.false_ne_true
          · exact ⟨upper, c, head, goesOn, .inr changed⟩
      · exact iff_of_true (by simp [startsWord, capital, lower]) ⟨inWord, capital, same, .inl changed⟩
  · have capital := not_isUppercase_of_isLowercase lower
    exact iff_of_false (by simp [startsWord, letters, capital]) (by simp [Splits, changed])

theorem forall_suffix_cons {P : Char → Char → List Char → Prop} :
    (∀ x y rest, x :: y :: rest <:+ a :: b :: cs → P x y rest) ↔
      P a b cs ∧ ∀ x y rest, x :: y :: rest <:+ b :: cs → P x y rest := by
  constructor
  · intro h
    exact ⟨h a b cs (List.suffix_refl _),
      fun x y rest suffix => h x y rest (suffix.trans (List.suffix_cons a _))⟩
  · rintro ⟨here, later⟩ x y rest suffix
    obtain whole | suffix := List.suffix_cons_iff.1 suffix
    · cases whole
      exact here
    · exact later x y rest suffix

/-- Behind the form of `before` the rest of the new text stays as it is if no word in it splits. -/
theorem kebabAfter_kebabAfter_iff (undotted : '\u0130' ∉ cs)
    (left : isAlphanumeric before = true → IsForm before a) :
    kebabAfter a (kebabAfter before cs) = kebabAfter before cs ↔
      ∀ x y rest, x :: y :: rest <:+ before :: cs → ¬ Splits x y rest := by
  induction cs generalizing before a with
  | nil => exact iff_of_true rfl fun x y rest suffix => absurd suffix.length_le (by simp)
  | cons c cs ih =>
    have later : '\u0130' ∉ cs := fun dotted => undotted (List.mem_cons_of_mem c dotted)
    rw [forall_suffix_cons]
    cases letter : isAlphanumeric c with
    | true =>
      obtain ⟨d, form, again, isForm⟩ := exists_form fun dotted => undotted (dotted ▸ List.mem_cons_self)
      have formLetter := isForm.isAlphanumeric letter
      have tail := ih later fun _ => isForm
      rw [kebabAfter_of_letter letter, form]
      cases starts : startsWord before c cs.head? with
      | true =>
        -- The hyphen is in the new text, so a word begins at the form of `c` again.
        have restarts : startsWord '-' d (kebabAfter c cs).head? = true := by
          simp [startsWord, isAlphanumeric_hyphen]
        have unsplit : ¬ Splits before c cs := by simp [Splits, continues, starts]
        rw [if_pos rfl, List.singleton_append, List.singleton_append,
          kebabAfter_of_other isAlphanumeric_hyphen, kebabAfter_of_letter formLetter, if_pos restarts,
          again, List.singleton_append, List.singleton_append, List.cons_inj_right, List.cons_inj_right,
          tail, and_iff_right unsplit]
      | false =>
        have inWord : continues before c cs.head? = true := by simp [continues, letter, starts]
        have first := ((startsWord_eq_false_iff _ _ _).1 starts).1
        have splits := startsWord_form_iff later inWord (left first) isForm
        rw [if_neg Bool.false_ne_true, List.nil_append, List.singleton_append,
          kebabAfter_of_letter formLetter, again, ← splits]
        cases restarts : startsWord a d (kebabAfter c cs).head? with
        | true =>
          refine iff_of_false (fun same => ?_) fun h => h.1 rfl
          obtain ⟨rfl, -⟩ := List.cons_eq_cons.1 same
          exact Bool.false_ne_true (isAlphanumeric_hyphen.symm.trans formLetter)
        | false =>
          rw [if_neg Bool.false_ne_true, List.nil_append, List.singleton_append, List.cons_inj_right, tail,
            and_iff_right Bool.false_ne_true]
    | false =>
      have unsplit : ¬ Splits before c cs := by simp [Splits, continues, letter]
      have other : isAlphanumeric c = true → IsForm c a :=
        fun h => absurd (letter.symm.trans h) Bool.false_ne_true
      rw [kebabAfter_of_other letter, ih later other, and_iff_right unsplit]

theorem not_splits_of_other (h : isAlphanumeric a = false) (b : Char) (rest : List Char) :
    ¬ Splits a b rest := by
  simp [Splits, continues, startsWord, h]

theorem kebabChars_kebabChars_iff (undotted : '\u0130' ∉ cs) :
    kebabChars (kebabChars cs) = kebabChars cs ↔ ∀ x y rest, x :: y :: rest <:+ cs → ¬ Splits x y rest := by
  induction cs with
  | nil => exact iff_of_true rfl fun x y rest suffix => absurd suffix.length_le (by simp)
  | cons c cs ih =>
    have later : '\u0130' ∉ cs := fun dotted => undotted (List.mem_cons_of_mem c dotted)
    cases letter : isAlphanumeric c with
    | true =>
      obtain ⟨d, form, again, isForm⟩ := exists_form fun dotted => undotted (dotted ▸ List.mem_cons_self)
      rw [kebabChars_of_letter letter, form, List.singleton_append,
        kebabChars_of_letter (isForm.isAlphanumeric letter), again, List.singleton_append,
        List.cons_inj_right, kebabAfter_kebabAfter_iff later fun _ => isForm]
    | false =>
      rw [kebabChars_of_other letter, ih later]
      constructor
      · intro h x y rest suffix
        obtain whole | suffix := List.suffix_cons_iff.1 suffix
        · cases whole
          exact not_splits_of_other letter y rest
        · exact h x y rest suffix
      · exact fun h x y rest suffix => h x y rest (suffix.trans (List.suffix_cons c cs))

/-- Nothing in a text in kebab case changes in lower case. -/
theorem not_changes_of_mem_kebabChars (mem : d ∈ kebabChars cs) : changes d = false := by
  obtain rfl | ⟨c, -, -, part⟩ := mem_kebabChars mem
  · exact changes_eq_false_iff.2 (lowercaseForm_of_other (by decide))
  obtain ⟨-, form⟩ | form | ⟨e, form, lower⟩ := lowercaseForm_cases c <;> rw [form] at part
  · obtain rfl | rfl : d = 'i' ∨ d = '\u0307' := by simpa using part
    · exact changes_eq_false_iff.2 (lowercaseForm_of_isLowercase isLowercase_i)
    · exact changes_eq_false_iff.2 (lowercaseForm_of_other (by decide))
  · obtain rfl := List.mem_singleton.1 part
    exact changes_eq_false_iff.2 form
  · obtain rfl := List.mem_singleton.1 part
    exact changes_eq_false_iff.2 (lowercaseForm_of_isLowercase lower)

theorem undotted_kebabChars (cs : List Char) : '\u0130' ∉ kebabChars cs :=
  fun mem => absurd (not_changes_of_mem_kebabChars mem) (by decide)

/-- The combining dot of a dotted capital is in the text, and the next pass drops it. -/
theorem kebabChars_kebabChars_ne (dotted : '\u0130' ∈ cs) : kebabChars (kebabChars cs) ≠ kebabChars cs := by
  intro same
  have dot : '\u0307' ∈ kebabChars cs := by
    have kept : '\u0307' ∈ (kebabChars cs).filter (· ≠ '-') := by
      rw [filter_kebabChars]
      exact List.mem_flatMap.2 ⟨_, List.mem_filter.2 ⟨dotted, tables_fit.dotted.1⟩, by decide⟩
    exact (List.mem_filter.1 kept).1
  rw [← same] at dot
  obtain hyphen | ⟨c, mem, other, part⟩ := mem_kebabChars dot
  · exact absurd hyphen (by decide)
  · rw [changes_eq_false_iff.1 (not_changes_of_mem_kebabChars mem)] at part
    obtain rfl := List.mem_singleton.1 part
    exact Bool.false_ne_true ((not_isAlphanumeric_of_other (by decide)).symm.trans other)

theorem kebab_kebab_eq_iff {name : String} : kebab (kebab name) = kebab name ↔ Lasts name.toList := by
  have chars : kebab (kebab name) = kebab name ↔
      kebabChars (kebabChars name.toList) = kebabChars name.toList := by
    rw [← String.toList_inj, kebab, kebab, String.toList_ofList, String.toList_ofList]
  rw [chars]
  constructor
  · intro same
    have undotted : '\u0130' ∉ name.toList := fun dotted => kebabChars_kebabChars_ne dotted same
    exact ⟨undotted, (kebabChars_kebabChars_iff undotted).1 same⟩
  · exact fun h => (kebabChars_kebabChars_iff h.undotted).2 h.whole

/-- What was put in kebab case twice stays as it is: nothing changes in lower case any more. -/
theorem lasts_kebab (name : String) : Lasts (kebab name).toList := by
  rw [kebab, String.toList_ofList]
  refine ⟨undotted_kebabChars _, fun a b rest suffix splits => ?_⟩
  have settled : ∀ c ∈ a :: b :: rest, changes c = false :=
    fun c mem => not_changes_of_mem_kebabChars (suffix.subset mem)
  obtain ⟨-, -, -, changed | ⟨-, c, head, -, changed⟩⟩ := splits
  · exact Bool.false_ne_true ((settled a List.mem_cons_self).symm.trans changed)
  · have mem : c ∈ a :: b :: rest := by simp [List.mem_of_head? head]
    exact Bool.false_ne_true ((settled c mem).symm.trans changed)

end TextMate.Text

namespace TextMate

open Text (kebab Lasts kebab_kebab_eq_iff lasts_kebab)

/-- A grammar that is called like its segment keeps it if the segment is given or the name lasts. -/
theorem segment_renamed_iff {g : Grammar} {s : String} (named : g.segment = .ok s) :
    { g with name := s }.segment = .ok s ↔ (g.scopeName = none → Lasts g.name.toList) := by
  obtain ⟨unchecked, valid⟩ := Grammar.segment_eq_ok_iff.1 named
  rw [Grammar.segment_eq_ok_iff, and_iff_left valid]
  rw [Grammar.uncheckedSegment] at unchecked ⊢
  cases given : g.scopeName with
  | some text =>
    rw [given] at unchecked
    exact iff_of_true unchecked (by simp)
  | none =>
    rw [given] at unchecked
    subst unchecked
    rw [imp_iff_right rfl]
    exact kebab_kebab_eq_iff

/-- Putting a name in kebab case again changes it only if it does not last, and a third time changes
nothing. A grammar that is called like its segment keeps it on the same terms. -/
theorem kebab_again :
    (∀ name, (kebab (kebab name) = kebab name ↔ Lasts name.toList) ∧
      kebab (kebab (kebab name)) = kebab (kebab name)) ∧
    ∀ (g : Grammar) (s : String), g.segment = .ok s →
      ({ g with name := s }.segment = .ok s ↔ (g.scopeName = none → Lasts g.name.toList)) :=
  ⟨fun name => ⟨kebab_kebab_eq_iff, kebab_kebab_eq_iff.2 (lasts_kebab name)⟩,
    fun _ _ named => segment_renamed_iff named⟩

/-- A grammar that keeps its segment when it is called like it, and one that does not. -/
theorem kebab_again_renamed :
    ((Grammar.new "JSONPath").segment = .ok "json-path" ∧
      (Grammar.new "json-path").segment = .ok "json-path") ∧
    (Grammar.new "A\u2102").segment = .ok "a\u2102" ∧ (Grammar.new "a\u2102").segment ≠ .ok "a\u2102" := by
  obtain ⟨twice, renamed⟩ := kebab_again
  have path : (Grammar.new "JSONPath").segment = .ok "json-path" := by decide +kernel
  have letters : (Grammar.new "A\u2102").segment = .ok "a\u2102" := by decide +kernel
  have lasts : Lasts "JSONPath".toList := (twice "JSONPath").1.1 (by decide +kernel)
  have changed : kebab (kebab "A\u2102") ≠ kebab "A\u2102" := by decide +kernel
  refine ⟨⟨path, (renamed _ _ path).2 fun _ => lasts⟩, letters, fun kept => changed ?_⟩
  exact (twice "A\u2102").1.2 ((renamed _ _ letters).1 kept rfl)

/-- A capital without a small letter begins a word once a small letter comes before it. A dotted capital
leaves a dot that is no letter. -/
theorem kebab_not_idempotent :
    kebab (kebab "A\u2102") ≠ kebab "A\u2102" ∧ kebab (kebab "\u0130") ≠ kebab "\u0130" := by
  decide +kernel

end TextMate
