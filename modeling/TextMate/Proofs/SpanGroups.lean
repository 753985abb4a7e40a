import TextMate.Proofs.Locality
import TextMate.Proofs.References

/-!
# The groups of a span

The end of a span may refer to groups of its beginning, which must then keep their numbers. Whether it does
is decided on the emitted end, from which the outer group may have been left out already. That is no
matter, since the parentheses of a group neither make nor hide a reference
(`GroupStyle.hasBackreference_elide`). So with a reference both regexes are emitted as they were compiled,
and without one each of them is what it would be in a rule of its own (`compile_spanRegexes`).
-/

set_option autoImplicit false

namespace TextMate

section Elided

variable {α : Type} (allowed : Bool) (text : String) (styles : List (Nat × GroupStyle α))

/-- Without its outer group a text refers to groups exactly if it did before. -/
theorem GroupStyle.hasBackreference_elide :
    Regex.hasBackreference (elide allowed text styles).1 = Regex.hasBackreference text := by
  rcases elide_cases allowed text styles with same | ⟨us, _, chars, -, -, -, inner⟩
  · rw [same]
  · rw [inner, Regex.hasBackreference, Regex.hasBackreference, String.toList_ofList, chars,
      Regex.hasBackreferenceIn_group]

/-- A text that refers to groups keeps all of them. -/
theorem GroupStyle.elide_of_hasBackreference (h : Regex.hasBackreference text = true) :
    elide allowed text styles = (text, styles) := by
  have kept : ¬ (allowed && isElidable text styles) = true := by
    rw [Bool.and_eq_true, isElidable_iff, h]
    rintro ⟨-, -, -, -, unreferenced⟩
    cases unreferenced
  rw [elide, if_neg kept]

end Elided

variable {grammar : String} {path : Path} {pattern : Pattern}
  {declared : List (String × Declaration Mode)} {regex : String × RuleCaptures}

/-- The regex of a rule is that of a pattern as it was compiled: every entry has the number that its
group has there. -/
structure KeepsGroups (grammar : String) (pattern : Pattern)
    (declared : List (String × Declaration Mode)) (regex : String × RuleCaptures) (f : Fragment)
    (styles : List (Nat × GroupStyle Mode)) : Prop where
  compiled : pattern.compile = .ok f
  resolved : f.styles (.ofList declared) = .ok styles
  text : regex.1 = f.text
  numbers : regex.2.map Prod.fst = styles.map Prod.fst
  entries : List.Forall₂ (fun s c => s.1 = c.1 ∧ EntryOf grammar s.2 c.2) styles regex.2

theorem numbers_of_entries {styles : List (Nat × GroupStyle Mode)} {entries : RuleCaptures}
    (h : List.Forall₂ (fun s c => s.1 = c.1 ∧ EntryOf grammar s.2 c.2) styles entries) :
    entries.map Prod.fst = styles.map Prod.fst := by
  induction h with
  | nil => rfl
  | cons first _ ih => rw [List.map_cons, List.map_cons, ← first.1, ih]

/-- A regex whose outer group is not left out has all its groups. -/
theorem exists_keepsGroups {field : RegexField} {elidable : Bool}
    (made : regexWithCaptures grammar field elidable pattern (compileDeclarations grammar declared) path =
      .ok regex)
    (kept : ∀ f (styles : List (Nat × GroupStyle Mode)), pattern.compile = .ok f →
      GroupStyle.elide elidable f.text styles = (f.text, styles)) :
    ∃ f styles, KeepsGroups grammar pattern declared regex f styles := by
  obtain ⟨e, emission, text, entries⟩ := regexWithCaptures_eq_ok_iff_emitted.1 made
  obtain ⟨f, styles, compiled, resolved, rfl⟩ := emitted_eq_ok_iff.1 emission
  rw [kept f styles compiled] at text entries
  exact ⟨f, styles, compiled, resolved, text, numbers_of_entries entries, entries⟩

/-- A regex whose outer group may be left out is that of a rule which has no other. -/
theorem yields_single {field : RegexField}
    (made : regexWithCaptures grammar field true pattern (compileDeclarations grammar declared) path =
      .ok regex) :
    (Mode.single pattern none declared []).Yields grammar (.single none regex.1 regex.2 []) := by
  intro place
  have whole := regexWithCaptures_eq_ok_iff_emitted.1 made
  exact makes_iff.1 (.single (regexWithCaptures_eq_ok_iff_emitted.2 whole) rfl rfl)

/-- How the two regexes of a span hang together. -/
structure SpanRegexes (grammar : String) (opening closing : Pattern)
    (openingCaptures closingCaptures : List (String × Declaration Mode))
    (first last : String × RuleCaptures) : Prop where
  /-- The emitted end refers to groups exactly if the pattern does. -/
  refers : ∀ f, closing.compile = .ok f →
    (Regex.RefersToGroup last.1.toList ↔ Regex.RefersToGroup f.text.toList)
  /-- If it does then no group of the span is left out. -/
  kept : Regex.RefersToGroup last.1.toList →
    (∃ f styles, KeepsGroups grammar opening openingCaptures first f styles) ∧
      ∃ f styles, KeepsGroups grammar closing closingCaptures last f styles
  /-- If it does not then neither regex depends on the other. -/
  apart : ¬ Regex.RefersToGroup last.1.toList →
    (Mode.single opening none openingCaptures []).Yields grammar (.single none first.1 first.2 []) ∧
      (Mode.single closing none closingCaptures []).Yields grammar (.single none last.1 last.2 [])

/-- In the rule of a span all groups keep their numbers if the end refers to groups. Otherwise each
regex with its captures is what a mode with that pattern alone has. -/
theorem compile_spanRegexes {opening closing : Pattern} {scope contentScope : Option Scope}
    {openingCaptures closingCaptures : List (String × Declaration Mode)} {contains : List Mode}
    {closingLast : Bool} {rule : Rule}
    (h : (Mode.span opening closing scope contentScope openingCaptures closingCaptures contains
      closingLast).compile grammar path = .ok rule) :
    ∃ name contentName first last patterns n,
      rule = .span name contentName first.1 last.1 first.2 last.2 patterns n ∧
        SpanRegexes grammar opening closing openingCaptures closingCaptures first last := by
  cases makes_iff.2 h with
  | @span _ _ _ _ _ _ _ _ first last name contentName patterns closed opened _ _ _ =>
    refine ⟨name, contentName, first, last, patterns, _, rfl, ?_, ?_, ?_⟩
    · intro f compiled
      obtain ⟨f', styles, compiled', -, text, -⟩ := regexWithCaptures_eq_ok_iff.1 closed
      cases Except.ok.inj (compiled'.symm.trans compiled)
      rw [← Regex.hasBackreference_iff, ← Regex.hasBackreference_iff, text,
        GroupStyle.hasBackreference_elide]
    · intro refers
      rw [← Regex.hasBackreference_iff] at refers
      rw [refers] at opened
      refine ⟨exists_keepsGroups opened fun f styles _ => rfl,
        exists_keepsGroups closed fun f styles compiled => ?_⟩
      obtain ⟨f', styles', compiled', -, text, -⟩ := regexWithCaptures_eq_ok_iff.1 closed
      cases Except.ok.inj (compiled'.symm.trans compiled)
      rw [text, GroupStyle.hasBackreference_elide] at refers
      exact GroupStyle.elide_of_hasBackreference _ _ _ refers
    · intro plain
      rw [← Regex.hasBackreference_iff, Bool.not_eq_true] at plain
      rw [plain] at opened
      exact ⟨yields_single opened, yields_single closed⟩

/-- A text between two marks of the same kind. -/
def marked : Mode :=
  .span (.tag (.capture (.leaf "[%#]") "mark" 0) [⟨"punctuation.begin"⟩] 1)
    (.tag (.leaf "\\1") [⟨"punctuation.end"⟩] 2) none none [("mark", .scope ⟨"keyword"⟩)] [] [] false

/-- The rule of `marked`: the group of the first mark is still there. -/
def markedRule : Rule :=
  .span none none "([%#])" "(\\1)" [(1, ⟨some "punctuation.begin.toy keyword.toy", []⟩)]
    [(1, ⟨some "punctuation.end.toy", []⟩)] [] none

theorem compile_spanRegexes_marked :
    marked.compile "toy" [] = .ok markedRule ∧ Regex.RefersToGroup "(\\1)".toList ∧
      (∃ f styles, KeepsGroups "toy" (.tag (.capture (.leaf "[%#]") "mark" 0) [⟨"punctuation.begin"⟩] 1)
        [("mark", .scope ⟨"keyword"⟩)]
        ("([%#])", [(1, ⟨some "punctuation.begin.toy keyword.toy", []⟩)]) f styles) ∧
      ∃ f styles, KeepsGroups "toy" (.tag (.leaf "\\1") [⟨"punctuation.end"⟩] 2) []
        ("(\\1)", [(1, ⟨some "punctuation.end.toy", []⟩)]) f styles := by
  have compiled : marked.compile "toy" [] = .ok markedRule := by rfl
  have refers : Regex.RefersToGroup "(\\1)".toList := Regex.hasBackreference_iff.1 (by decide)
  obtain ⟨_, _, ⟨_, _⟩, ⟨_, _⟩, _, _, made, regexes⟩ := compile_spanRegexes compiled
  cases made
  exact ⟨compiled, refers, regexes.kept refers⟩

end TextMate
