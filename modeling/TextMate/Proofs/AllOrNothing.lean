import TextMate.Proofs.Places
import TextMate.Proofs.ReportOrder
import TextMate.Proofs.Reported

/-!
# All or nothing

A grammar compiles exactly if its scope name can be derived and no mode in it fails on its own,
however deep it is. Otherwise one rule is reported: the first in the order of places that fails, with
its place, its field and its fault.
-/

set_option autoImplicit false

namespace TextMate

namespace Grammar

/-- All failures of a grammar in the order in which it is compiled. -/
def failures (g : Grammar) : List Failure :=
  Survey.inList (g.patterns.map Mode.failures) [] ++
    g.repository.entries.flatMap fun e => e.2.mode.failures [.repository e.1]

end Grammar

variable {g : Grammar} {failure : Failure}

theorem reports_compileRepository (grammar : String) (entries : List (String × Entry)) :
    Reports (compileRepository grammar entries [])
      (entries.flatMap fun e => e.2.mode.failures [.repository e.1]) := by
  induction entries with
  | nil => exact .ok []
  | cons e entries ih =>
    rw [List.flatMap_cons, compileRepository, Entry.compile_eq]
    exact (reports_compile grammar e.2.mode _).bind fun rule _ => ih.map ((e.1, rule) :: ·)

/-- The rules of a grammar report the first of its failures. -/
theorem reports_compileRules (g : Grammar) (segment : String) :
    Reports (g.compileRules segment []) g.failures := by
  rw [Grammar.compileRules, compileEach_eq_map]
  refine (reports_inList fun n _ => reports_compile segment n).bind fun patterns _ => ?_
  exact (reports_compileRepository segment g.repository.entries).map
    (GrammarFile.mk g.name (rootSegment ++ segment) (normalExtensions g.fileTypes) patterns)

theorem mem_grammar_failures_iff :
    failure ∈ g.failures ↔
      (∃ (i : Nat) (n : Mode), g.patterns[i]? = some n ∧ failure ∈ n.failures [.pattern i]) ∨
      ∃ name entry, g.repository.get? name = some entry ∧
        failure ∈ entry.mode.failures [.repository name] := by
  rw [Grammar.failures, List.mem_append, Survey.mem_inList_map, List.mem_flatMap]
  refine or_congr_right ?_
  constructor
  · rintro ⟨⟨name, entry⟩, entered, mem⟩
    exact ⟨name, entry, NameMap.mem_entries_iff.1 entered, mem⟩
  · rintro ⟨name, entry, found, mem⟩
    exact ⟨(name, entry), NameMap.mem_entries_iff.2 found, mem⟩

/-- Every failure that is listed is that of a mode which fails on its own, at its place. -/
theorem holds_of_mem_failures (h : failure ∈ g.failures) :
    ∃ m, g.Holds failure.path m ∧ m.Fails failure.field failure.fault := by
  rcases mem_grammar_failures_iff.1 h with ⟨i, n, listed, mem⟩ | ⟨name, entry, found, mem⟩
  · obtain ⟨place, m, held, at', fails⟩ := Mode.mem_failures mem
    rw [at']
    exact ⟨m, .pattern listed held, fails⟩
  · obtain ⟨place, m, held, at', fails⟩ := Mode.mem_failures mem
    rw [at']
    exact ⟨m, .repository found held, fails⟩

/-- A mode that fails on its own and has a place is listed there. -/
theorem exists_mem_failures {place : Path} {m : Mode} {field : Field} {fault : Fault}
    (held : g.Holds place m) (fails : m.Fails field fault) :
    ∃ shown, ⟨place, field, shown⟩ ∈ g.failures := by
  cases held with
  | @pattern _ _ i _ listed inside =>
    obtain ⟨shown, mem⟩ := Mode.exists_failure inside fails [.pattern i]
    exact ⟨shown, mem_grammar_failures_iff.2 (.inl ⟨_, _, listed, mem⟩)⟩
  | @repository _ _ name _ found inside =>
    obtain ⟨shown, mem⟩ := Mode.exists_failure inside fails [.repository name]
    exact ⟨shown, mem_grammar_failures_iff.2 (.inr ⟨_, _, found, mem⟩)⟩

/-- If no mode that has a place fails then every mode has one. -/
theorem exists_holds_of_grammar_has {m : Mode} (h : g.Has m)
    (sound : ∀ place n field fault, g.Holds place n → ¬ n.Fails field fault) :
    ∃ place, g.Holds place m := by
  cases h with
  | pattern listed inside =>
    obtain ⟨i, listed⟩ := List.getElem?_of_mem listed
    obtain ⟨place, held⟩ := Mode.exists_holds_of_has inside fun place n field fault held =>
      sound _ n field fault (.pattern listed held)
    exact ⟨_, .pattern listed held⟩
  | repository found inside =>
    obtain ⟨place, held⟩ := Mode.exists_holds_of_has inside fun place n field fault held =>
      sound _ n field fault (.repository found held)
    exact ⟨_, .repository found held⟩

/-- Nothing is wrong with a grammar exactly if no mode in it fails on its own. -/
theorem failures_eq_nil_iff :
    g.failures = [] ↔ ∀ m, g.Has m → ∀ field fault, ¬ m.Fails field fault := by
  constructor
  · intro empty m has field fault fails
    have sound : ∀ place n field fault, g.Holds place n → ¬ n.Fails field fault := by
      intro place n field fault held fails
      obtain ⟨shown, mem⟩ := exists_mem_failures held fails
      rw [empty] at mem
      cases mem
    obtain ⟨place, held⟩ := exists_holds_of_grammar_has has sound
    exact sound place m field fault held fails
  · intro none
    refine List.eq_nil_iff_forall_not_mem.2 fun failure mem => ?_
    obtain ⟨m, held, fails⟩ := holds_of_mem_failures mem
    exact none m (Grammar.has_of_holds held) _ _ fails

/-- The failures of a grammar are listed in the order of their places. -/
theorem grammar_failures_inOrder (g : Grammar) : g.failures.Pairwise Failure.InOrder := by
  refine List.pairwise_append.2 ⟨inOrder_inList fun n _ => failures_inOrder n, ?_, ?_⟩
  · refine List.pairwise_flatMap.2 ⟨fun e _ => failures_inOrder _ _, ?_⟩
    refine g.repository.ordered.imp ?_
    intro e e' lt a ha b hb
    have under : a.Under [] _ := under_of_mem_failures ha
    exact Failure.inOrder_of_before under (under_of_mem_failures hb) (.name lt)
  · intro a ha b hb
    obtain ⟨i, under⟩ := under_of_mem_inList ha
    obtain ⟨e, -, mem⟩ := List.mem_flatMap.1 hb
    exact Failure.inOrder_of_before under (under_of_mem_failures mem) (.listed i e.1)

theorem compile_eq_ok_iff {file : GrammarFile} :
    g.compile = .ok file ↔ ∃ segment, g.segment = .ok segment ∧ g.compileRules segment [] = .ok file := by
  unfold Grammar.compile
  cases g.segment with
  | error fault => simp
  | ok segment => cases h : g.compileRules segment [] <;> simp [h]

theorem compile_eq_error_iff {segment : String} (named : g.segment = .ok segment) {e : Error} :
    g.compile = .error e ↔ ∃ failure, g.failures.head? = some failure ∧ e = failure.toError := by
  have reports := reports_compileRules g segment
  unfold Grammar.compile
  rw [named]
  cases h : g.compileRules segment [] with
  | error stop =>
    have head := (reports stop).1 h
    simp [h, head, eq_comm]
  | ok file =>
    have empty := reports.isOk_iff.1 ⟨file, h⟩
    simp [h, empty]

theorem segment_fault {fault : Fault} (h : g.segment = .error fault) :
    ∃ reason, fault = .badScopeName g.name reason := by
  unfold Grammar.segment at h
  split at h
  · cases h
    exact ⟨_, rfl⟩
  · split at h
    · cases h
      exact ⟨_, rfl⟩
    · cases h

/-- A place in a grammar has at least one step. -/
theorem Grammar.Holds.place_ne_nil {place : Path} {m : Mode} (h : g.Holds place m) : place ≠ [] := by
  cases h <;> exact List.cons_ne_nil _ _

/-- What becomes of a grammar. -/
structure AllOrNothing (g : Grammar) : Prop where
  /-- It compiles if it has a scope name and no mode in it fails on its own. -/
  compiles : (∃ file, g.compile = .ok file) ↔ (∃ segment, g.segment = .ok segment) ∧
    ∀ m, g.Has m → ∀ field fault, ¬ m.Fails field fault
  /-- Without a scope name nothing else is reported. -/
  unnamed : ∀ fault, g.segment = .error fault →
    g.compile = .error (.plain fault) ∧ ∃ reason, fault = .badScopeName g.name reason
  /-- Otherwise the first failure is reported, as a fault in one rule. -/
  first : ∀ segment, g.segment = .ok segment → ∀ e, g.compile = .error e ↔
    ∃ failure, g.failures.head? = some failure ∧
      e = .inRule (".".intercalate (failure.path.map Step.text)) failure.field.label
        (.plain failure.fault)
  /-- A failure is that of a mode at its place. -/
  located : ∀ failure ∈ g.failures, ∃ m, g.Holds failure.path m ∧
    m.Fails failure.field failure.fault
  /-- No field of a mode that fails at its place is left out. -/
  complete : ∀ place m field fault, g.Holds place m → m.Fails field fault →
    ∃ shown, ⟨place, field, shown⟩ ∈ g.failures
  ordered : g.failures.Pairwise Failure.InOrder
  /-- Places are those of the rules in the finished grammar. -/
  placed : ∀ file, g.compile = .ok file → ∀ place m, g.Holds place m → ∃ segment rule,
    g.segment = .ok segment ∧ file.at? place = some rule ∧ m.compile segment place = .ok rule

/-- A grammar compiles all or nothing, and the error points at the first failing rule. -/
theorem compile_allOrNothing (g : Grammar) : AllOrNothing g where
  compiles := by
    rw [← failures_eq_nil_iff]
    constructor
    · rintro ⟨file, compiled⟩
      obtain ⟨segment, named, rules⟩ := compile_eq_ok_iff.1 compiled
      exact ⟨⟨segment, named⟩, (reports_compileRules g segment).isOk_iff.1 ⟨file, rules⟩⟩
    · rintro ⟨⟨segment, named⟩, empty⟩
      obtain ⟨file, rules⟩ := (reports_compileRules g segment).isOk_iff.2 empty
      exact ⟨file, compile_eq_ok_iff.2 ⟨segment, named, rules⟩⟩
  unnamed fault h := by
    refine ⟨?_, segment_fault h⟩
    rw [Grammar.compile, h]
  first segment named e := by
    rw [compile_eq_error_iff named]
    refine exists_congr fun failure => and_congr_right fun head => ?_
    obtain ⟨m, held, -⟩ := holds_of_mem_failures (List.mem_of_mem_head? head)
    rw [Failure.toError, Path.text, if_neg held.place_ne_nil]
  located failure mem := holds_of_mem_failures mem
  complete place m field fault held fails := exists_mem_failures held fails
  ordered := grammar_failures_inOrder g
  placed file compiled place m held := by
    obtain ⟨segment, named, rules⟩ := compile_eq_ok_iff.1 compiled
    obtain ⟨rule, found, made⟩ := at?_compileRules held rules
    exact ⟨segment, rule, named, found, made⟩

/-- A call, with an argument whose rule has a blank scope. Two rules of the entry fail, and the one
in the group of the argument comes first. -/
def blankArgument : Grammar :=
  ((Grammar.new "Toy").withScopeName "toy").withRule "call" (.several
    [.includes .self,
      .single (.sequence (.leaf "f") (.capture (.leaf "\\w+") "arg" 0)) none
        [("arg", .rule none [.single (.leaf "\\d+") (some ⟨" "⟩) [] []])]
        [.single (.repetition (.leaf "x") 3 (some 2)) none [] []]])

example : blankArgument.compile =
    .error (.inRule "repository.call.patterns[1].captures.1.patterns[0]" "name"
      (.plain .emptyScope)) := by rfl

end TextMate
