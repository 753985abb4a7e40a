import TextMate.Proofs.Locality
import TextMate.Proofs.Places

/-!
# The rules inside a rule

A rule has rules in its list and in the entries of its captures. They are the rules of the modes inside
the mode, all of them and no others: every rule inside the rule of a mode is that of a mode inside the
mode (`mode_of_has`), and the rule of every mode inside is there (`rule_of_has`).
-/

set_option autoImplicit false

namespace TextMate

/-- Whether the outer group of a regex of the mode may be left out. -/
def Mode.mayElide : Mode → RegexField → Bool
  | span _ closing _ _ _ closingCaptures _ _, .opening =>
    elidableBefore (emitted true closing closingCaptures)
  | _, _ => true

/-- What is emitted for a regex of the mode. -/
def Mode.emission (mode : Mode) (part : RegexPart) : Except Fault (Emission Mode) :=
  emitted (mode.mayElide part.field) part.pattern part.declared

/-- A regex that has compiled has what is emitted for its mode: the text, and an entry for each
style. -/
structure RegexOf (grammar : String) (mode : Mode) (part : RegexPart)
    (regex : RegexField × String × RuleCaptures) (e : Emission Mode) : Prop where
  field : part.field = regex.1
  emission : mode.emission part = .ok e
  text : regex.2.1 = e.1
  entries : List.Forall₂ (fun s c => s.1 = c.1 ∧ EntryOf grammar s.2 c.2) e.2 regex.2.2

/-- A rule is the other or somewhere inside it: in a list, or in the entry of a group. -/
inductive Rule.Has : Rule → Rule → Prop where
  | self (rule : Rule) : Has rule rule
  | inner {rule n r : Rule} : n ∈ rule.inner → Has n r → Has rule r
  | capture {rule n r : Rule} {regex : RegexField × String × RuleCaptures} {group : Nat}
      {entry : CaptureRule Rule} :
      regex ∈ rule.regexes → (group, entry) ∈ regex.2.2 → n ∈ entry.patterns → Has n r → Has rule r

/-- A rule is anywhere in a finished grammar. -/
inductive GrammarFile.Has (file : GrammarFile) (r : Rule) : Prop where
  | pattern {n : Rule} : n ∈ file.patterns → n.Has r → Has file r
  | repository {name : String} {n : Rule} : (name, n) ∈ file.repository → n.Has r → Has file r

section

variable {grammar : String} {mode m : Mode} {rule r : Rule}

/-- If the regex of a mode compiles then it is emitted. -/
theorem regexOf_of_compile (part : RegexPart) {path : Path} {elidable : Bool}
    {regex : String × RuleCaptures}
    (made : regexWithCaptures grammar part.field elidable part.pattern
      (compileDeclarations grammar part.declared) path = .ok regex)
    (same : mode.mayElide part.field = elidable) :
    ∃ e, RegexOf grammar mode part (part.field, regex) e := by
  obtain ⟨e, emission, text, entries⟩ := regexWithCaptures_eq_ok_iff_emitted.1 made
  exact ⟨e, rfl, by rw [Mode.emission, same, emission], text, entries⟩

/-- The regexes of a rule are those of its mode, in the same order. -/
theorem regexes_of_yields (h : mode.Yields grammar rule) :
    List.Forall₂ (fun part regex => ∃ e, RegexOf grammar mode part regex e) mode.regexes
      rule.regexes := by
  cases makes_iff.2 (h []) with
  | @single pattern _ captures _ _ _ _ whole _ _ =>
    apply List.Forall₂.cons (regexOf_of_compile ⟨.whole, pattern, captures⟩ whole rfl)
    exact .nil
  | @span opening closing _ _ openingCaptures closingCaptures _ _ _ _ _ _ _ closed opened _ _ _ =>
    apply List.Forall₂.cons
    · exact regexOf_of_compile ⟨.opening, opening, openingCaptures⟩ opened (elidableBefore_of_ok closed)
    apply List.Forall₂.cons (regexOf_of_compile ⟨.closing, closing, closingCaptures⟩ closed rfl)
    exact .nil
  | group _ => exact .nil
  | includes target => exact .nil

/-- The list of a rule has the rules of the list of its mode. -/
theorem inner_of_yields (h : mode.Yields grammar rule) :
    List.Forall₂ (Mode.Yields grammar) mode.inner rule.inner :=
  yields_inList (inner_compile (h []))

/-- Every rule inside the rule of a mode is that of a mode inside the mode. -/
theorem mode_of_has (has : rule.Has r) (h : mode.Yields grammar rule) :
    ∃ m, mode.Has m ∧ m.Yields grammar r := by
  induction has generalizing mode with
  | self rule => exact ⟨mode, .self mode, h⟩
  | inner listed _ ih =>
    obtain ⟨n, isMode, made⟩ := exists_of_mem_right (inner_of_yields h) listed
    obtain ⟨m, inside, made⟩ := ih made
    exact ⟨m, .inner isMode inside, made⟩
  | capture isRegex isEntry listed _ ih =>
    obtain ⟨part, isPart, e, regex⟩ := exists_of_mem_right (regexes_of_yields h) isRegex
    obtain ⟨style, styled, -, entry⟩ := exists_of_mem_right regex.entries isEntry
    obtain ⟨n, isMode, made⟩ := exists_of_mem_right entry.patterns listed
    obtain ⟨name, spec, declared, isMode⟩ := entry_of_mem_patterns regex.emission styled isMode
    obtain ⟨m, inside, made⟩ := ih made
    exact ⟨m, .declared isPart declared isMode inside, made⟩

/-- Every mode inside a mode has its rule inside the rule of the mode. -/
theorem rule_of_has (has : mode.Has m) (h : mode.Yields grammar rule) :
    ∃ r, rule.Has r ∧ m.Yields grammar r := by
  induction has generalizing rule with
  | self mode => exact ⟨rule, .self rule, h⟩
  | inner listed _ ih =>
    obtain ⟨n, isRule, made⟩ := exists_of_mem_left (inner_of_yields h) listed
    obtain ⟨r, inside, made⟩ := ih made
    exact ⟨r, .inner isRule inside, made⟩
  | declared isPart declared listed _ ih =>
    obtain ⟨regex, isRegex, e, compiled⟩ := exists_of_mem_left (regexes_of_yields h) isPart
    obtain ⟨k, style, styled, same, -⟩ := exists_style_of_entry compiled.emission declared
    obtain ⟨⟨k', entry⟩, isEntry, -, made⟩ := exists_of_mem_left compiled.entries styled
    rw [← same] at listed
    obtain ⟨n, isRule, made⟩ := exists_of_mem_left made.patterns listed
    obtain ⟨r, inside, made⟩ := ih made
    exact ⟨r, .capture isRegex isEntry isRule inside, made⟩

variable {g : Grammar} {file : GrammarFile}

/-- Every rule in a finished grammar is that of a mode in the grammar. -/
theorem mode_of_file_has (h : g.compileRules grammar [] = .ok file) (has : file.Has r) :
    ∃ m, g.Has m ∧ m.Yields grammar r := by
  obtain ⟨patterns, repository⟩ := yields_compileRules h
  cases has with
  | pattern listed inside =>
    obtain ⟨n, isMode, made⟩ := exists_of_mem_right patterns listed
    obtain ⟨m, has, made⟩ := mode_of_has inside made
    exact ⟨m, .pattern isMode has, made⟩
  | repository listed inside =>
    obtain ⟨⟨name, entry⟩, entered, -, made⟩ := exists_of_mem_right repository listed
    obtain ⟨m, has, made⟩ := mode_of_has inside made
    exact ⟨m, .repository (NameMap.mem_entries_iff.1 entered) has, made⟩

/-- Every mode in a grammar has its rule in the finished grammar. -/
theorem rule_of_grammar_has (h : g.compileRules grammar [] = .ok file) (has : g.Has m) :
    ∃ r, file.Has r ∧ m.Yields grammar r := by
  obtain ⟨patterns, repository⟩ := yields_compileRules h
  cases has with
  | pattern listed inside =>
    obtain ⟨n, isRule, made⟩ := exists_of_mem_left patterns listed
    obtain ⟨r, has, made⟩ := rule_of_has inside made
    exact ⟨r, .pattern isRule has, made⟩
  | repository entry inside =>
    obtain ⟨⟨name, n⟩, listed, -, made⟩ :=
      exists_of_mem_left repository (NameMap.mem_entries_iff.2 entry)
    obtain ⟨r, has, made⟩ := rule_of_has inside made
    exact ⟨r, .repository listed has, made⟩

end

end TextMate
