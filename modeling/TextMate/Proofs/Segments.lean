import TextMate.Proofs.AllOrNothing
import TextMate.Proofs.Hyphenation

/-!
# The last segment of a scope name

The name of a grammar in kebab case is a single segment, unless nothing is left of it. A grammar that is
given the segment it has, alone or behind the root segment and with white space around, has the same
segment, so it compiles as before (`segment_settled`).
-/

set_option autoImplicit false

namespace TextMate

open Unicode

namespace Text

theorem dropBlanks_append {blanks cs : List Char} (blank : ∀ c ∈ blanks, isBlank c = true)
    (head : ∀ c ∈ cs.head?, isBlank c = false) : (blanks ++ cs).dropWhile isBlank = cs := by
  rw [List.dropWhile_append_of_pos blank]
  cases cs with
  | nil => rfl
  | cons c cs => exact List.dropWhile_cons_of_neg (by simp [head c rfl])

/-- No white space stands at either end. -/
structure IsTrimmed (cs : List Char) : Prop where
  head : ∀ c ∈ cs.head?, isBlank c = false
  last : ∀ c ∈ cs.getLast?, isBlank c = false

theorem trimChars_surrounded {before body after : List Char} (first : ∀ c ∈ before, isBlank c = true)
    (last : ∀ c ∈ after, isBlank c = true) (trimmed : IsTrimmed body) :
    trimChars (before ++ (body ++ after)) = body := by
  by_cases empty : body = []
  · subst empty
    exact trimChars_eq_nil_iff.2 (List.forall_mem_append.2 ⟨first, last⟩)
  have front : ∀ c ∈ (body ++ after).head?, isBlank c = false := by
    rw [List.head?_append_of_ne_nil _ empty]
    exact trimmed.head
  have back : ∀ c ∈ body.reverse.head?, isBlank c = false := by
    rw [List.head?_reverse]
    exact trimmed.last
  rw [trimChars, dropBlanks_append first front, dropTrailingBlanks, List.reverse_append,
    dropBlanks_append (by simpa using last) back, List.reverse_reverse]

/-- Trimming takes the white space around a text, and nothing of a text that has none. -/
theorem trim_surrounded {before text after : String} (first : ∀ c ∈ before.toList, isBlank c = true)
    (last : ∀ c ∈ after.toList, isBlank c = true) (solid : ∀ c ∈ text.toList, isBlank c = false) :
    trim (before ++ text ++ after) = text := by
  have trimmed : IsTrimmed text.toList :=
    ⟨fun c mem => solid c (List.mem_of_head? mem), fun c mem => solid c (List.mem_of_getLast? mem)⟩
  rw [← String.toList_inj, trim, String.toList_ofList, String.toList_append, String.toList_append,
    List.append_assoc, trimChars_surrounded first last trimmed]

/-- A name in kebab case has no dot and no white space. -/
theorem kebab_solid (name : String) : ∀ c ∈ (kebab name).toList, c ≠ '.' ∧ isBlank c = false := by
  intro c mem
  rw [kebab, String.toList_ofList] at mem
  obtain rfl | ⟨d, -, letter, form⟩ := mem_kebabChars mem
  · decide
  obtain part | rfl := mem_lowercaseForm letter form
  · refine ⟨?_, not_isBlank_of_isAlphanumeric part⟩
    rintro rfl
    exact Bool.false_ne_true ((not_isAlphanumeric_of_other (by decide)).symm.trans part)
  · decide

theorem kebab_eq_empty_iff {name : String} :
    kebab name = "" ↔ ∀ c ∈ name.toList, isAlphanumeric c = false := by
  rw [← kebabChars_eq_nil_iff, kebab, ← String.toList_inj, String.toList_ofList, String.toList_empty]

end Text

theorem dropRootSegment_root (s : String) : dropRootSegment (rootSegment ++ s) = s := by
  have prefixed : rootSegment.toList.isPrefixOf? (rootSegment ++ s).toList = some s.toList := by
    rw [List.isPrefixOf?_eq_some_iff_append_eq, String.toList_append]
  rw [dropRootSegment, prefixed]
  exact String.ofList_toList

theorem dropRootSegment_of_single {s : String} (single : ∀ c ∈ s.toList, c ≠ '.') :
    dropRootSegment s = s := by
  unfold dropRootSegment
  split
  · next rest split =>
    rw [List.isPrefixOf?_eq_some_iff_append_eq] at split
    have dot : '.' ∈ s.toList := by
      rw [← split]
      exact List.mem_append_left _ (by decide)
    exact absurd rfl (single _ dot)
  · rfl

variable {g : Grammar} {s : String}

/-- The name of the compiled grammar is the segment behind the root segment. -/
theorem scopeName_of_compile {file : GrammarFile} (h : g.compile = .ok file) :
    ∃ s, g.segment = .ok s ∧ file.scopeName = rootSegment ++ s := by
  obtain ⟨s, named, rules⟩ := compile_eq_ok_iff.1 h
  obtain ⟨_, -, made⟩ := Placed.bind_eq_ok_iff.1 rules
  obtain ⟨_, -, made⟩ := Placed.bind_eq_ok_iff.1 made
  cases made
  exact ⟨s, named, rfl⟩

theorem uncheckedSegment_withScopeName (g : Grammar) (given : String) :
    (g.withScopeName given).uncheckedSegment = dropRootSegment (Text.trim given) := rfl

/-- Giving a grammar the segment that it has makes no difference. -/
theorem segment_withScopeName (named : g.segment = .ok s) {before given after : String}
    (first : ∀ c ∈ before.toList, isBlank c = true) (last : ∀ c ∈ after.toList, isBlank c = true)
    (either : given = s ∨ given = rootSegment ++ s) :
    (g.withScopeName (before ++ given ++ after)).segment = .ok s := by
  obtain ⟨-, nonempty, single⟩ := Grammar.segment_eq_ok_iff.1 named
  refine Grammar.segment_eq_ok_iff.2 ⟨?_, nonempty, single⟩
  have root : ∀ c ∈ rootSegment.toList, isBlank c = false := by
    have table : rootSegment.toList.all (!isBlank ·) = true := by decide
    simpa using table
  have solid : ∀ c ∈ given.toList, isBlank c = false := by
    intro c mem
    obtain rfl | rfl := either
    · exact (single c mem).2
    · rw [String.toList_append, List.mem_append] at mem
      exact mem.elim (root c) fun rest => (single c rest).2
  rw [uncheckedSegment_withScopeName, Text.trim_surrounded first last solid]
  obtain rfl | rfl := either
  · exact dropRootSegment_of_single fun c mem => (single c mem).1
  · exact dropRootSegment_root s

/-- The rules do not depend on where the segment comes from. -/
theorem compile_withScopeName {given : String} (named : g.segment = .ok s)
    (again : (g.withScopeName given).segment = .ok s) : (g.withScopeName given).compile = g.compile := by
  rw [Grammar.compile, Grammar.compile, named, again]
  rfl

/-- Without a name of its own the segment is missing only if the name has no letter and no number. -/
theorem segment_eq_error_iff (derived : g.scopeName = none) {fault : Fault} :
    g.segment = .error fault ↔ (∀ c ∈ g.name.toList, isAlphanumeric c = false) ∧
      fault = .badScopeName g.name "the scope name is empty" := by
  have unchecked : g.uncheckedSegment = Text.kebab g.name := by rw [Grammar.uncheckedSegment, derived]
  rw [← Text.kebab_eq_empty_iff]
  by_cases empty : Text.kebab g.name = ""
  · rw [Grammar.segment, unchecked, if_pos empty]
    simp [empty, eq_comm]
  · have named : g.segment = .ok (Text.kebab g.name) :=
      Grammar.segment_eq_ok_iff.2 ⟨unchecked, empty, Text.kebab_solid g.name⟩
    rw [named]
    exact iff_of_false nofun fun h => empty h.1

/-- What a grammar has for a last segment. -/
structure Settled (g : Grammar) : Prop where
  single : ∀ s, g.segment = .ok s → s ≠ "" ∧ ∀ c ∈ s.toList, c ≠ '.' ∧ isBlank c = false
  /-- It may be given outright, with or without the root segment and with white space around. -/
  given : ∀ s, g.segment = .ok s → ∀ before after : String,
    (∀ c ∈ before.toList, isBlank c = true) → (∀ c ∈ after.toList, isBlank c = true) →
      (g.withScopeName (before ++ s ++ after)).segment = .ok s ∧
      (g.withScopeName (before ++ (rootSegment ++ s) ++ after)).segment = .ok s
  /-- The compiled grammar is the same if its scope name is given. -/
  compiled : ∀ file, g.compile = .ok file → ∀ before after : String,
    (∀ c ∈ before.toList, isBlank c = true) → (∀ c ∈ after.toList, isBlank c = true) →
      (g.withScopeName (before ++ file.scopeName ++ after)).compile = .ok file
  /-- A name that is not given is missing for one reason only. -/
  derived : g.scopeName = none → ∀ fault, g.segment = .error fault ↔
    (∀ c ∈ g.name.toList, isAlphanumeric c = false) ∧
      fault = .badScopeName g.name "the scope name is empty"

/-- The segment of a grammar is a single one, and giving it to the grammar changes nothing. -/
theorem segment_settled (g : Grammar) : Settled g where
  single _ named := (Grammar.segment_eq_ok_iff.1 named).2
  given _ named _ _ first last :=
    ⟨segment_withScopeName named first last (.inl rfl), segment_withScopeName named first last (.inr rfl)⟩
  compiled file h before after first last := by
    obtain ⟨s, named, scopeName⟩ := scopeName_of_compile h
    have again := segment_withScopeName named first last (.inr rfl)
    rw [scopeName, compile_withScopeName named again, h]
  derived none _ := segment_eq_error_iff none

example : ((Grammar.new "C++").withScopeName "\tsource.c \n").segment = .ok "c" := by
  decide

end TextMate
