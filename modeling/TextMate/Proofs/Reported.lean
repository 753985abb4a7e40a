import TextMate.Proofs.Failures

/-!
# The failure that is reported

Compiling stops at the first failure, so what it reports is the head of all that is wrong. Each
computation of the compiler is matched with the part of the survey that lists its failures: one after
the other for a sequence of computations (`Reports.bind`), and so for a mode (`reports_compile`) and a
grammar (`reports_compileRules`).
-/

set_option autoImplicit false

namespace TextMate

variable {α β : Type}

/-- The result fails exactly if there are failures, and then with the first of them. -/
def Reports (x : Except Failure α) (failures : List Failure) : Prop :=
  ∀ failure, x = .error failure ↔ failures.head? = some failure

theorem Reports.ok (a : α) : Reports (.ok a) [] := by
  intro failure
  exact iff_of_false nofun nofun

theorem Reports.error (failure : Failure) : Reports (.error failure : Except Failure α) [failure] := by
  intro failure'
  rw [Except.error.injEq, List.head?_cons, Option.some.injEq]

theorem Reports.bind {x : Except Failure α} {k : α → Except Failure β} {s t : List Failure}
    (first : Reports x s) (next : ∀ a, x = .ok a → Reports (k a) t) : Reports (x >>= k) (s ++ t) := by
  intro failure
  cases x with
  | error stop =>
    have head : s.head? = some stop := (first stop).1 rfl
    rw [List.head?_append, head]
    change Except.error stop = .error failure ↔ some stop = some failure
    rw [Except.error.injEq, Option.some.injEq]
  | ok a =>
    have empty : s = [] := by
      cases s with
      | nil => rfl
      | cons stop _ => cases (first stop).2 rfl
    rw [empty, List.nil_append]
    exact next a rfl failure

/-- What is done with a result afterwards adds no failure. -/
theorem Reports.map {x : Except Failure α} {s : List Failure} (h : Reports x s) (g : α → β) :
    Reports (x >>= fun a => .ok (g a)) s := by
  have both := h.bind (k := fun a => .ok (g a)) (t := []) fun a _ => .ok (g a)
  rwa [List.append_nil] at both

theorem Reports.isOk_iff {x : Except Failure α} {s : List Failure} (h : Reports x s) :
    (∃ a, x = .ok a) ↔ s = [] := by
  cases x with
  | error stop =>
    have head := (h stop).1 rfl
    refine iff_of_false nofun ?_
    rintro rfl
    cases head
  | ok a =>
    refine iff_of_true ⟨a, rfl⟩ ?_
    cases s with
    | nil => rfl
    | cons stop _ => cases (h stop).2 rfl

variable {grammar : String} {path : Path}

theorem reports_inField {field : Field} {x : Except Fault α} {s : List Failure}
    (ok : ∀ a, x = .ok a → s = []) (error : ∀ fault, x = .error fault → s = [⟨path, field, fault⟩]) :
    Reports (Placed.inField field x path) s := by
  cases x with
  | ok a =>
    rw [ok a rfl]
    exact .ok a
  | error fault =>
    rw [error fault rfl]
    exact .error ⟨path, field, fault⟩

theorem reports_qualified (field : Field) (scope : Scope) :
    Reports (qualified grammar field scope path) (Survey.ofScopes field [scope] path) := by
  refine reports_inField ?_ ?_
  · intro name ok
    have named : ¬ scope.IsBlank := by
      intro blank
      cases ok.symm.trans (Scope.qualify_fails_iff.2 ⟨rfl, blank⟩)
    simp [Survey.ofScopes, named]
  · intro fault error
    obtain ⟨rfl, blank⟩ := Scope.qualify_fails_iff.1 error
    simp [Survey.ofScopes, blank]

theorem Survey.ofScopes_cons (field : Field) (scope : Scope) (scopes : List Scope) :
    ofScopes field (scope :: scopes) path =
      ofScopes field [scope] path ++ ofScopes field scopes path := by
  rw [ofScopes, ← List.singleton_append, List.filter_append, List.map_append]
  rfl

theorem reports_scopes (field : Field) (scopes : List Scope) :
    Reports (scopes.mapM (qualified grammar field) path) (Survey.ofScopes field scopes path) := by
  induction scopes with
  | nil => exact .ok []
  | cons scope scopes ih =>
    rw [List.mapM_cons, Survey.ofScopes_cons]
    exact (reports_qualified field scope).bind fun name _ => ih.map (name :: ·)

theorem reports_qualified? (field : Field) (scope : Option Scope) :
    Reports (qualified? grammar field scope path) (Survey.ofScopes field scope.toList path) := by
  cases scope with
  | none => exact .ok none
  | some scope => exact (reports_qualified field scope).map some

/-- The modes report their first failures wherever they stand. -/
def Mode.ReportsAnywhere (grammar : String) (mode : Mode) : Prop :=
  ∀ path, Reports (mode.compile grammar path) (mode.failures path)

theorem reports_inListFrom {modes : List Mode} (h : ∀ n ∈ modes, n.ReportsAnywhere grammar) (i : Nat) :
    Reports (Placed.inListFrom i (modes.map (Mode.compile grammar)) path)
      (Survey.inListFrom i (modes.map Mode.failures) path) := by
  induction modes generalizing i with
  | nil => exact .ok []
  | cons n modes ih =>
    obtain ⟨head, tail⟩ := List.forall_mem_cons.1 h
    exact (head _).bind fun rule _ => (ih tail (i + 1)).map (rule :: ·)

theorem reports_inList {modes : List Mode} (h : ∀ n ∈ modes, n.ReportsAnywhere grammar) :
    Reports (Placed.inList (modes.map (Mode.compile grammar)) path)
      (Survey.inList (modes.map Mode.failures) path) :=
  reports_inListFrom h 0

theorem reports_captureRule {field : RegexField} {group : Nat} {style : GroupStyle Mode}
    (h : ∀ n ∈ style.patterns, n.ReportsAnywhere grammar) :
    Reports (captureRule grammar field group (style.map (Mode.compile grammar)) path)
      (Survey.ofStyle field group (style.map Mode.failures) path) :=
  (reports_scopes (.regex field) style.scopes).bind fun names _ =>
    (reports_inList h).map (CaptureRule.mk (joinNames names))

theorem reports_captureRules {field : RegexField} {styles : List (Nat × GroupStyle Mode)}
    (h : ∀ s ∈ styles, ∀ n ∈ s.2.patterns, n.ReportsAnywhere grammar) :
    Reports
      (captureRules grammar field (styles.map fun s => (s.1, s.2.map (Mode.compile grammar))) path)
      ((styles.map fun s => (s.1, s.2.map Mode.failures)).flatMap fun s =>
        Survey.ofStyle field s.1 s.2 path) := by
  induction styles with
  | nil => exact .ok []
  | cons s styles ih =>
    obtain ⟨head, tail⟩ := List.forall_mem_cons.1 h
    exact (reports_captureRule head).bind fun rule _ => (ih tail).map ((s.1, rule) :: ·)

/-- A regex fails with its own fault, or with the first failure of its styles. -/
theorem reports_regexWithCaptures {field : RegexField} {elidable : Bool} {pattern : Pattern}
    {declared : List (String × Declaration Mode)}
    (h : ∀ e ∈ declared, ∀ n ∈ e.2.patterns, n.ReportsAnywhere grammar) :
    Reports
      (regexWithCaptures grammar field elidable pattern (compileDeclarations grammar declared) path)
      (Survey.ofRegex field ((emitted elidable pattern declared).map (Emission.map Mode.failures))
        path) := by
  rw [regexWithCaptures_eq, compileDeclarations_eq_map, emitted_map]
  cases result : emitted elidable pattern declared with
  | error fault => exact .error _
  | ok e =>
    have inside : ∀ s ∈ e.2, ∀ n ∈ s.2.patterns, n.ReportsAnywhere grammar := by
      intro s styled n rule
      obtain ⟨name, spec, entry, rule⟩ := entry_of_mem_patterns result styled rule
      exact h _ (NameMap.mem_of_get?_ofList (NameMap.mem_entries_iff.1 entry)) n rule
    exact (reports_captureRules inside).map fun captures => (e.1, captures)

/-- A mode reports the first of its failures. -/
theorem reports_compile (grammar : String) (mode : Mode) : mode.ReportsAnywhere grammar := by
  induction mode using Mode.ind with
  | step mode inList inDeclared =>
    intro path
    cases mode with
    | single pattern scope captures contains =>
      have declared := inDeclared _ List.mem_cons_self
      rw [Mode.failures_single, Mode.compile, compileEach_eq_map]
      refine (reports_regexWithCaptures declared).bind fun regex _ => ?_
      refine (reports_qualified? .name scope).bind fun name _ => ?_
      exact (reports_inList inList).map (Rule.single name regex.1 regex.2)
    | span opening closing scope contentScope openingCaptures closingCaptures contains closingLast =>
      have opened := inDeclared _ List.mem_cons_self
      have closed := inDeclared _ (List.mem_cons_of_mem _ List.mem_cons_self)
      rw [Mode.failures_span, Mode.compile, compileEach_eq_map]
      refine (reports_regexWithCaptures closed).bind fun last compiled => ?_
      rw [elidableBefore_of_ok compiled]
      refine (reports_regexWithCaptures opened).bind fun first _ => ?_
      refine (reports_qualified? .name scope).bind fun name _ => ?_
      refine (reports_qualified? .contentName contentScope).bind fun contentName _ => ?_
      exact (reports_inList inList).map fun patterns => Rule.span name contentName first.1 last.1
        first.2 last.2 patterns (if closingLast then some 1 else none)
    | group modes =>
      rw [Mode.failures_group, Mode.compile, compileEach_eq_map]
      exact (reports_inList inList).map Rule.list
    | includes target => exact .ok _

end TextMate
