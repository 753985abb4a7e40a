import TextMate.Proofs.AllOrNothing
import TextMate.Proofs.RulesInside

/-!
# The finished grammar mirrors the grammar

Every mode becomes one rule of its own kind, and the modes of a list become the rules of a list, in
the same order (`Mirrors`). The rules that are declared for a name stand once under every group of the
capture that the name is for, and nowhere else (`Spread`). Where a mode stands makes no difference, so
its rule is the same in every grammar with the same last segment (`compile_mirrors`).
-/

set_option autoImplicit false

namespace TextMate

variable {α : Type}

/-- How the declared rules are spread over the groups of a regex. If its outer group is left out then
`shift` is 1, and every other group has moved down by one. -/
structure Spread (f : Fragment) (shift : Nat) (declared : NameMap (Declaration α)) (e : Emission α) :
    Prop where
  text : (shift = 0 ∧ e.1 = f.text) ∨ (shift = 1 ∧ f.text = "(" ++ e.1 ++ ")")
  increasing : e.2.Pairwise fun a b => a.1 < b.1
  /-- The rules of a declaration are those of every group that its name is for. -/
  every : ∀ name spec, declared.get? name = some spec → f.groupsFound name ≠ [] ∧
    ∀ n ∈ f.groupsFound name, ∃ k style, n = k + shift ∧ (k, style) ∈ e.2 ∧
      style.patterns = spec.patterns
  /-- No other group has rules. -/
  only : ∀ k style, (k, style) ∈ e.2 → style.patterns ≠ [] → ∃ name spec,
    declared.get? name = some spec ∧ k + shift ∈ f.groupsFound name ∧ style.patterns = spec.patterns

section Resolved

variable {p : Pattern} {f : Fragment} {declared : NameMap (Declaration α)}
  {styles : List (Nat × GroupStyle α)} {name : String} {spec : Declaration α} {n : Nat}

/-- A declared name is for at least one group. -/
theorem groupsFound_ne_nil (h : Builds p f) (finds : p.Finds f.text name) :
    f.groupsFound name ≠ [] := by
  unfold Fragment.groupsFound
  split
  · exact List.cons_ne_nil 0 []
  · next other =>
    unfold Pattern.Finds at finds
    rw [if_neg other] at finds
    obtain ⟨id, called, -⟩ := finds
    intro empty
    exact (groupsNamed_eq_nil_iff h).1 empty id called

/-- A group that a declared name is for has the declared rules. -/
theorem style_of_groupsFound (h : Builds p f) (found : f.styles declared = .ok styles)
    (declaredAs : declared.get? name = some spec) (mem : n ∈ f.groupsFound name) :
    ∃ style, (n, style) ∈ styles ∧ style.patterns = spec.patterns := by
  have isDeclared := Option.isSome_of_eq_some declaredAs
  have finds := (exists_styles_iff h).1 ⟨styles, found⟩ name isDeclared
  rcases (mem_groupsFound_iff h finds).1 mem with ⟨rfl, rfl⟩ | ⟨other, id, own, named⟩
  · have whole : Fragment.wholeStyle? declared = some ⟨spec.scope?.toList, spec.patterns⟩ := by
      rw [Fragment.wholeStyle?, declaredAs, Option.map_some]
    exact ⟨_, (Fragment.mem_styles found).2 (.inl ⟨rfl, whole⟩), rfl⟩
  · obtain ⟨pos, label⟩ := Fragment.mem_groupsOf.1 own
    have entry := NameMap.mem_entries_iff.2 declaredAs
    have declaration := Fragment.declarationFor?_of_mem_entries named other entry
    have style : f.styleOf? declared id = some _ :=
      (styleOf?_of_builds h).2 ⟨.inr (Option.isSome_of_eq_some declaration), rfl⟩
    refine ⟨_, (Fragment.mem_styles found).2 (.inr ⟨pos, id, label, style⟩), ?_⟩
    rw [Fragment.declaredPatterns, declaration]
    rfl

/-- The rules of a group are declared for a name that the group is for. -/
theorem name_of_patterns (h : Builds p f) (found : f.styles declared = .ok styles)
    {style : GroupStyle α} (mem : (n, style) ∈ styles) (rules : style.patterns ≠ []) :
    ∃ name spec, declared.get? name = some spec ∧ n ∈ f.groupsFound name ∧
      style.patterns = spec.patterns := by
  rcases (Fragment.mem_styles found).1 mem with ⟨rfl, whole⟩ | ⟨pos, id, label, own⟩
  · obtain ⟨spec, declaredAs, rfl⟩ := Option.map_eq_some_iff.1 whole
    exact ⟨wholeMatch, spec, declaredAs, zero_mem_groupsFound_iff.2 rfl, rfl⟩
  · obtain ⟨-, rfl⟩ := (styleOf?_of_builds h).1 own
    cases declaration : Fragment.declarationFor? declared id with
    | none =>
      rw [Fragment.declaredPatterns, declaration] at rules
      exact absurd rfl rules
    | some spec =>
      obtain ⟨name, named, other, entry⟩ := Fragment.mem_entries_of_declarationFor? declaration
      have declaredAs := NameMap.mem_entries_iff.1 entry
      have finds :=
        (exists_styles_iff h).1 ⟨styles, found⟩ name (Option.isSome_of_eq_some declaredAs)
      have group : n ∈ f.groupsOf id := Fragment.mem_groupsOf.2 ⟨pos, label⟩
      refine ⟨name, spec, declaredAs, (mem_groupsFound_of_own h finds group).2 ⟨other, named⟩, ?_⟩
      rw [Fragment.declaredPatterns, declaration]
      rfl

end Resolved

/-- The declared rules of an emitted regex are spread over its groups. -/
theorem exists_spread {elidable : Bool} {pattern : Pattern} {declared : List (String × Declaration α)}
    {e : Emission α} (h : emitted elidable pattern declared = .ok e) :
    ∃ f shift, pattern.compile = .ok f ∧ Spread f shift (.ofList declared) e := by
  have increasing := emitted_increasing h
  obtain ⟨f, styles, shift, compiled, found, text, moved, above⟩ := exists_shift h
  have built := builds_of_compile compiled
  refine ⟨f, shift, compiled, text, increasing, ?_, ?_⟩
  · intro name spec declaredAs
    have finds :=
      (exists_styles_iff built).1 ⟨styles, found⟩ name (Option.isSome_of_eq_some declaredAs)
    refine ⟨groupsFound_ne_nil built finds, fun n mem => ?_⟩
    obtain ⟨style, styled, patterns⟩ := style_of_groupsFound built found declaredAs mem
    obtain ⟨k, rfl⟩ := above n style styled
    exact ⟨k, style, rfl, (moved k style).2 styled, patterns⟩
  · intro k style styled rules
    exact name_of_patterns built found ((moved k style).1 styled) rules

mutual

/-- The rule has the shape of the mode. -/
inductive Mirrors : Mode → Rule → Prop where
  | single {pattern : Pattern} {scope : Option Scope} {captures : List (String × Declaration Mode)}
      {contains : List Mode} {name : Option String} {regex : String} {entries : RuleCaptures}
      {patterns : List Rule} :
      MirrorsRegex pattern captures regex entries → MirrorsEach contains patterns →
      Mirrors (.single pattern scope captures contains) (.single name regex entries patterns)
  | span {opening closing : Pattern} {scope contentScope : Option Scope}
      {openingCaptures closingCaptures : List (String × Declaration Mode)} {contains : List Mode}
      {closingLast : Bool} {name contentName : Option String} {first last : String}
      {firstEntries lastEntries : RuleCaptures} {patterns : List Rule} :
      MirrorsRegex opening openingCaptures first firstEntries →
      MirrorsRegex closing closingCaptures last lastEntries → MirrorsEach contains patterns →
      Mirrors
        (.span opening closing scope contentScope openingCaptures closingCaptures contains closingLast)
        (.span name contentName first last firstEntries lastEntries patterns
          (if closingLast then some 1 else none))
  | group {modes : List Mode} {patterns : List Rule} :
      MirrorsEach modes patterns → Mirrors (.group modes) (.list patterns)
  | includes (target : Reference) : Mirrors (.includes target) (.includes target.text)

/-- The rules of a list are those of the modes, one for each and in the same order. -/
inductive MirrorsEach : List Mode → List Rule → Prop where
  | nil : MirrorsEach [] []
  | cons {mode : Mode} {modes : List Mode} {rule : Rule} {rules : List Rule} :
      Mirrors mode rule → MirrorsEach modes rules → MirrorsEach (mode :: modes) (rule :: rules)

/-- A regex with the rules that are declared for its captures. -/
inductive MirrorsRegex : Pattern → List (String × Declaration Mode) → String → RuleCaptures → Prop where
  | spread {pattern : Pattern} {declared : List (String × Declaration Mode)} {f : Fragment} {shift : Nat}
      {e : Emission Mode} {entries : RuleCaptures} :
      pattern.compile = .ok f → Spread f shift (.ofList declared) e → MirrorsStyles e.2 entries →
      MirrorsRegex pattern declared e.1 entries

/-- The entries of a regex are those of its styles, at the same numbers. -/
inductive MirrorsStyles : List (Nat × GroupStyle Mode) → RuleCaptures → Prop where
  | nil : MirrorsStyles [] []
  | cons {k : Nat} {style : GroupStyle Mode} {styles : List (Nat × GroupStyle Mode)}
      {entry : CaptureRule Rule} {entries : RuleCaptures} :
      MirrorsEach style.patterns entry.patterns → MirrorsStyles styles entries →
      MirrorsStyles ((k, style) :: styles) ((k, entry) :: entries)

end

section Compiled

variable {grammar : String}

/-- Wherever the mode compiles, its rule mirrors it. -/
def Mode.IsMirrored (grammar : String) (mode : Mode) : Prop :=
  ∀ rule, mode.Yields grammar rule → Mirrors mode rule

theorem mirrorsEach_of_yields {modes : List Mode} {rules : List Rule}
    (h : ∀ n ∈ modes, n.IsMirrored grammar) (made : List.Forall₂ (Mode.Yields grammar) modes rules) :
    MirrorsEach modes rules := by
  induction made with
  | nil => exact .nil
  | cons first _ ih =>
    obtain ⟨head, tail⟩ := List.forall_mem_cons.1 h
    exact .cons (head _ first) (ih tail)

theorem mirrorsStyles_of_entries {styles : List (Nat × GroupStyle Mode)} {entries : RuleCaptures}
    (h : ∀ s ∈ styles, ∀ n ∈ s.2.patterns, n.IsMirrored grammar)
    (made : List.Forall₂ (fun s c => s.1 = c.1 ∧ EntryOf grammar s.2 c.2) styles entries) :
    MirrorsStyles styles entries := by
  induction made with
  | nil => exact .nil
  | @cons s c _ _ first _ ih =>
    obtain ⟨head, tail⟩ := List.forall_mem_cons.1 h
    obtain ⟨k, style⟩ := s
    obtain ⟨k', entry⟩ := c
    obtain ⟨rfl, entryOf⟩ := first
    exact .cons (mirrorsEach_of_yields head entryOf.patterns) (ih tail)

theorem mirrorsRegex_of_regexOf {mode : Mode} {part : RegexPart}
    {regex : RegexField × String × RuleCaptures} {e : Emission Mode}
    (h : ∀ d ∈ part.declared, ∀ n ∈ d.2.patterns, n.IsMirrored grammar)
    (made : RegexOf grammar mode part regex e) :
    MirrorsRegex part.pattern part.declared regex.2.1 regex.2.2 := by
  obtain ⟨f, shift, compiled, spread⟩ := exists_spread made.emission
  have inside : ∀ s ∈ e.2, ∀ n ∈ s.2.patterns, n.IsMirrored grammar := by
    intro s styled n rule
    obtain ⟨name, spec, entry, rule⟩ := entry_of_mem_patterns made.emission styled rule
    exact h _ (NameMap.mem_of_get?_ofList (NameMap.mem_entries_iff.1 entry)) n rule
  rw [made.text]
  exact .spread compiled spread (mirrorsStyles_of_entries inside made.entries)

/-- The rule of a mode has the shape of the mode. -/
theorem mirrors_of_yields (grammar : String) (mode : Mode) : mode.IsMirrored grammar := by
  induction mode using Mode.ind with
  | step mode inList inDeclared =>
    intro rule made
    have listed := mirrorsEach_of_yields inList (inner_of_yields made)
    have regexes := regexes_of_yields made
    cases makes_iff.2 (made []) with
    | single =>
      obtain ⟨⟨e, whole⟩, -⟩ := List.forall₂_cons.1 regexes
      exact .single (mirrorsRegex_of_regexOf (inDeclared _ List.mem_cons_self) whole) listed
    | span =>
      obtain ⟨⟨e, first⟩, rest⟩ := List.forall₂_cons.1 regexes
      obtain ⟨⟨e', last⟩, -⟩ := List.forall₂_cons.1 rest
      have opened := mirrorsRegex_of_regexOf (inDeclared _ List.mem_cons_self) first
      have closed := mirrorsRegex_of_regexOf
        (inDeclared _ (List.mem_cons_of_mem _ List.mem_cons_self)) last
      exact .span opened closed listed
    | group => exact .group listed
    | includes target => exact .includes target

end Compiled

/-- What a grammar and its finished form have in common. -/
structure Mirrored (g : Grammar) (file : GrammarFile) : Prop where
  patterns : List.Forall₂ Mirrors g.patterns file.patterns
  repository : List.Forall₂ (fun e r => e.1 = r.1 ∧ Mirrors e.2.mode r.2) g.repository.entries
    file.repository
  /-- At the place of a mode stands the rule that the mode has at every place. -/
  anywhere : ∀ place m, g.Holds place m → ∃ segment rule, g.segment = .ok segment ∧
    file.at? place = some rule ∧ m.Yields segment rule

/-- A mode gives the same wherever it stands, and a finished grammar has one rule for each mode, of
the same kind and in the same place. -/
theorem compile_mirrors :
    (∀ (mode : Mode) (grammar : String) (p q : Path), p ≠ [] → q ≠ [] → mode.AgreesAt grammar p q) ∧
      ∀ (g : Grammar) (file : GrammarFile), g.compile = .ok file → Mirrored g file := by
  refine ⟨fun mode grammar p q hp hq => agreesAt mode grammar hp hq, fun g file compiled => ?_⟩
  obtain ⟨segment, named, rules⟩ := compile_eq_ok_iff.1 compiled
  obtain ⟨patterns, repository⟩ := yields_compileRules rules
  refine ⟨?_, ?_, ?_⟩
  · exact patterns.imp fun mode rule => mirrors_of_yields segment mode rule
  · exact repository.imp fun e r pair => ⟨pair.1, mirrors_of_yields segment e.2.mode r.2 pair.2⟩
  · intro place m held
    obtain ⟨rule, found, made⟩ := at?_compileRules held rules
    exact ⟨segment, rule, named, found, yields_of_compile made⟩

/-- Two words, highlighted together. -/
def wordPair : Mode :=
  .single
    (.tag (.sequence (.capture (.leaf "\\w+") "word" 0)
      (.sequence (.leaf ",") (.capture (.leaf "\\w+") "word" 0))) [⟨"meta.pair"⟩] 1)
    none [("word", .rule none [.includes (.rule "value")])] []

/-- A group with `wordPair` in it, and an entry with a list. -/
def wordPairs : Grammar :=
  ((Grammar.new "Toy").withPattern (.group [.includes .self, wordPair])).withRule "value"
    (.several [.single (.leaf "\\d") none [] []])

/-- The rules for a word stand under both of its groups, each one number lower. -/
def wordPairsFile : GrammarFile where
  name := "Toy"
  scopeName := "source.toy"
  fileTypes := []
  patterns := [.list [.includes "$self",
    .single none "(\\w+),(\\w+)" [(0, ⟨some "meta.pair.toy", []⟩), (1, ⟨none, [.includes "#value"]⟩),
      (2, ⟨none, [.includes "#value"]⟩)] []]]
  repository := [("value", .list [.single none "\\d" [] []])]

theorem compile_mirrors_wordPairs :
    wordPairs.compile = .ok wordPairsFile ∧ Mirrored wordPairs wordPairsFile ∧
      [Step.pattern 0] ≠ [] ∧ [Step.repository "value"] ≠ [] ∧
      wordPair.AgreesAt "toy" [.pattern 0] [.repository "value"] := by
  have compiled : wordPairs.compile = .ok wordPairsFile := by rfl
  have first : [Step.pattern 0] ≠ [] := List.cons_ne_nil _ _
  have second : [Step.repository "value"] ≠ [] := List.cons_ne_nil _ _
  obtain ⟨agrees, mirrored⟩ := compile_mirrors
  exact ⟨compiled, mirrored _ _ compiled, first, second, agrees wordPair "toy" _ _ first second⟩

end TextMate
