import TextMate.Proofs.Inside

/-!
# Rules do not depend on their place

A computation is told where it stands only to report it. So a mode has the same rule at every place,
or it fails with the same fault in the same field of the same rule, and then the place of that rule
is the place of the mode followed by steps that the mode alone determines (`agreesAt`). A mode that compiles
somewhere therefore has one rule (`Yields`), and so have the modes that a list or a style has.
-/

set_option autoImplicit false

namespace TextMate

variable {α β : Type}

/-- The failure as it is seen from further out. -/
def Failure.within (path : Path) (failure : Failure) : Failure :=
  { failure with path := path ++ failure.path }

theorem Failure.within_within (p q : Path) (failure : Failure) :
    (failure.within q).within p = failure.within (p ++ q) := by
  unfold within
  rw [List.append_assoc]

namespace Placed

/-- The place shows in failures only, and there it stands in front. -/
def IsLocal (x : Placed α) : Prop :=
  ∀ path, x path = (x []).mapError (Failure.within path)

theorem isLocal_pure (a : α) : IsLocal (pure a : Placed α) := by
  intro path
  rfl

theorem IsLocal.bind {x : Placed α} {k : α → Placed β} (first : x.IsLocal)
    (next : ∀ a, (k a).IsLocal) : IsLocal (x >>= k) := by
  intro path
  show (x path >>= fun a => k a path) = (x [] >>= fun a => k a []).mapError (Failure.within path)
  rw [first path]
  cases x [] with
  | error failure => rfl
  | ok a => exact next a path

theorem isLocal_inField (field : Field) (x : Except Fault α) : IsLocal (inField field x) := by
  intro path
  cases x with
  | ok a => rfl
  | error fault =>
    show Except.error (⟨path, field, fault⟩ : Failure) = .error ⟨path ++ [], field, fault⟩
    rw [List.append_nil]

/-- One step further in, the place is longer by that step. -/
theorem IsLocal.under {x : Placed α} (h : x.IsLocal) (step : Step) : IsLocal (x.under step) := by
  intro path
  rw [under_apply, under_apply, List.nil_append, h (path ++ [step]), h [step]]
  cases x [] with
  | ok a => rfl
  | error failure =>
    show Except.error _ = Except.error _
    rw [Failure.within_within]

theorem isLocal_inListFrom {xs : List (Placed α)} (h : ∀ x ∈ xs, x.IsLocal) (i : Nat) :
    IsLocal (inListFrom i xs) := by
  induction xs generalizing i with
  | nil => exact isLocal_pure []
  | cons x xs ih =>
    obtain ⟨head, tail⟩ := List.forall_mem_cons.1 h
    apply (head.under (.pattern i)).bind
    intro a
    apply (ih tail (i + 1)).bind
    intro as
    exact isLocal_pure (a :: as)

theorem isLocal_inList {xs : List (Placed α)} (h : ∀ x ∈ xs, x.IsLocal) : IsLocal (inList xs) :=
  isLocal_inListFrom h 0

theorem isLocal_mapM {f : α → Placed β} (h : ∀ a, (f a).IsLocal) (as : List α) :
    IsLocal (as.mapM f) := by
  induction as with
  | nil => exact isLocal_pure []
  | cons a as ih =>
    rw [List.mapM_cons]
    apply (h a).bind
    intro b
    apply ih.bind
    intro bs
    exact isLocal_pure (b :: bs)

end Placed

section Parts

variable (grammar : String) (field : RegexField)

theorem isLocal_qualified (at' : Field) (scope : Scope) : (qualified grammar at' scope).IsLocal :=
  Placed.isLocal_inField at' (scope.qualify grammar)

theorem isLocal_qualified? (at' : Field) (scope : Option Scope) :
    (qualified? grammar at' scope).IsLocal := by
  cases scope with
  | none => exact Placed.isLocal_pure none
  | some scope =>
    apply (isLocal_qualified grammar at' scope).bind
    intro name
    exact Placed.isLocal_pure (some name)

theorem isLocal_captureRule (group : Nat) {style : GroupStyle (Placed Rule)}
    (h : ∀ x ∈ style.patterns, x.IsLocal) : (captureRule grammar field group style).IsLocal := by
  apply (Placed.isLocal_mapM (isLocal_qualified grammar (.regex field)) style.scopes).bind
  intro names
  apply ((Placed.isLocal_inList h).under (.capture field group)).bind
  intro patterns
  exact Placed.isLocal_pure (CaptureRule.mk (joinNames names) patterns)

theorem isLocal_captureRules {styles : List (Nat × GroupStyle (Placed Rule))}
    (h : ∀ s ∈ styles, ∀ x ∈ s.2.patterns, x.IsLocal) :
    (captureRules grammar field styles).IsLocal := by
  induction styles with
  | nil => exact Placed.isLocal_pure []
  | cons s styles ih =>
    obtain ⟨head, tail⟩ := List.forall_mem_cons.1 h
    apply (isLocal_captureRule grammar field s.1 head).bind
    intro rule
    apply (ih tail).bind
    intro rules
    exact Placed.isLocal_pure ((s.1, rule) :: rules)

/-- The rules in the styles of a regex are those that are declared, so its place shows no further. -/
theorem isLocal_regexWithCaptures (elidable : Bool) (pattern : Pattern)
    {declared : List (String × Declaration (Placed Rule))}
    (h : ∀ e ∈ declared, ∀ x ∈ e.2.patterns, x.IsLocal) :
    (regexWithCaptures grammar field elidable pattern declared).IsLocal := by
  intro path
  rw [regexWithCaptures_eq, regexWithCaptures_eq]
  cases result : emitted elidable pattern declared with
  | error fault => exact Placed.isLocal_inField (.regex field) (.error fault) path
  | ok e =>
    have inside : ∀ s ∈ e.2, ∀ x ∈ s.2.patterns, x.IsLocal := by
      intro s styled x rule
      obtain ⟨name, spec, entry, rule⟩ := entry_of_mem_patterns result styled rule
      exact h _ (NameMap.mem_of_get?_ofList (NameMap.mem_entries_iff.1 entry)) x rule
    have captures := isLocal_captureRules grammar field inside
    exact captures.bind (fun captures => Placed.isLocal_pure (e.1, captures)) path

end Parts

/-- What a mode compiles to does not depend on its place. -/
theorem isLocal_compile (grammar : String) (mode : Mode) : (mode.compile grammar).IsLocal := by
  induction mode using Mode.ind with
  | step mode inList inDeclared =>
    have listed {modes : List Mode} (h : ∀ n ∈ modes, (n.compile grammar).IsLocal) :
        (Placed.inList (modes.map (Mode.compile grammar))).IsLocal := by
      apply Placed.isLocal_inList
      intro x mem
      obtain ⟨n, isMode, rfl⟩ := List.mem_map.1 mem
      exact h n isMode
    have declared (part : RegexPart) (isPart : part ∈ mode.regexes) (elidable : Bool) :
        (regexWithCaptures grammar part.field elidable part.pattern
          (compileDeclarations grammar part.declared)).IsLocal := by
      apply isLocal_regexWithCaptures
      rw [compileDeclarations_eq_map]
      intro e mapped x rule
      obtain ⟨⟨name, spec⟩, entry, rfl⟩ := List.mem_map.1 mapped
      cases spec with
      | scope scope => cases rule
      | rule scope modes =>
        obtain ⟨n, isMode, rfl⟩ := List.mem_map.1 rule
        exact inDeclared part isPart _ entry n isMode
    cases mode with
    | single pattern scope captures contains =>
      rw [Mode.compile, compileEach_eq_map]
      apply (declared ⟨.whole, pattern, captures⟩ List.mem_cons_self true).bind
      intro regex
      apply (isLocal_qualified? grammar .name scope).bind
      intro name
      apply (listed inList).bind
      intro patterns
      exact Placed.isLocal_pure _
    | span opening closing scope contentScope openingCaptures closingCaptures contains closingLast =>
      rw [Mode.compile, compileEach_eq_map]
      apply (declared ⟨.closing, closing, closingCaptures⟩
        (List.mem_cons_of_mem _ List.mem_cons_self) true).bind
      intro last
      apply (declared ⟨.opening, opening, openingCaptures⟩ List.mem_cons_self _).bind
      intro first
      apply (isLocal_qualified? grammar .name scope).bind
      intro name
      apply (isLocal_qualified? grammar .contentName contentScope).bind
      intro contentName
      apply (listed inList).bind
      intro patterns
      exact Placed.isLocal_pure _
    | group modes =>
      rw [Mode.compile, compileEach_eq_map]
      apply (listed inList).bind
      intro patterns
      exact Placed.isLocal_pure _
    | includes target => exact Placed.isLocal_pure _

/-- Steps behind a path, as they are written there. -/
def Path.further : Path → String
  | [] => ""
  | step :: rest => "." ++ step.text ++ further rest

/-- Every path but the root is written in front of the steps behind it. -/
theorem Path.text_append {path : Path} (h : path ≠ []) (rest : Path) :
    Path.text (path ++ rest) = Path.text path ++ further rest := by
  induction rest generalizing path with
  | nil => rw [List.append_nil, further, String.append_empty]
  | cons step rest ih =>
    have longer : path ++ [step] ≠ [] :=
      List.append_ne_nil_of_right_ne_nil path (List.cons_ne_nil step [])
    have next : Path.text (path ++ [step]) = Path.text path ++ "." ++ step.text := by
      rw [text, text, if_neg longer, if_neg h, List.map_append]
      exact String.intercalate_append_of_ne_nil (mt List.map_eq_nil_iff.1 h) (List.cons_ne_nil _ _)
    rw [List.append_cons, ih longer, next, further]
    simp only [String.append_assoc]

/-- What a mode gives at two places: the same rule, or one failure that is written with one place or
the other in front. -/
inductive Mode.AgreesAt (mode : Mode) (grammar : String) (p q : Path) : Prop where
  | rule {rule : Rule} : mode.compile grammar p = .ok rule → mode.compile grammar q = .ok rule →
      AgreesAt mode grammar p q
  | failure {atP atQ : Failure} {rest field : String} {fault : Fault} :
      mode.compile grammar p = .error atP → mode.compile grammar q = .error atQ →
      atP.toError = .inRule (p.text ++ rest) field (.plain fault) →
      atQ.toError = .inRule (q.text ++ rest) field (.plain fault) →
      AgreesAt mode grammar p q

theorem Failure.toError_within {path : Path} (h : path ≠ []) (failure : Failure) :
    (failure.within path).toError =
      .inRule (path.text ++ Path.further failure.path) failure.field.label (.plain failure.fault) := by
  rw [toError, within, Path.text_append h]

/-- A mode gives the same at any two places but the root. -/
theorem agreesAt (mode : Mode) (grammar : String) {p q : Path} (hp : p ≠ []) (hq : q ≠ []) :
    mode.AgreesAt grammar p q := by
  have atP := isLocal_compile grammar mode p
  have atQ := isLocal_compile grammar mode q
  cases alone : mode.compile grammar [] with
  | ok rule =>
    rw [alone] at atP atQ
    exact .rule atP atQ
  | error failure =>
    rw [alone] at atP atQ
    exact .failure atP atQ (failure.toError_within hp) (failure.toError_within hq)

/-- The rule of a mode, which is the same wherever the mode stands. -/
def Mode.Yields (grammar : String) (mode : Mode) (rule : Rule) : Prop :=
  ∀ path, mode.compile grammar path = .ok rule

section Yields

variable {grammar : String} {path : Path}

theorem yields_of_compile {mode : Mode} {rule : Rule} (h : mode.compile grammar path = .ok rule) :
    mode.Yields grammar rule := by
  intro q
  rw [isLocal_compile grammar mode path] at h
  rw [isLocal_compile grammar mode q]
  cases alone : mode.compile grammar [] with
  | ok rule =>
    rw [alone] at h
    exact h
  | error failure =>
    rw [alone] at h
    cases h

/-- The rules of a list are those of its modes, in the same order. -/
theorem yields_inListFrom {modes : List Mode} {rules : List Rule} {i : Nat}
    (h : Placed.inListFrom i (modes.map (Mode.compile grammar)) path = .ok rules) :
    List.Forall₂ (Mode.Yields grammar) modes rules := by
  induction modes generalizing i rules with
  | nil =>
    cases h
    exact .nil
  | cons mode modes ih =>
    obtain ⟨rule, first, h⟩ := Placed.bind_eq_ok_iff.1 h
    obtain ⟨rest, later, h⟩ := Placed.bind_eq_ok_iff.1 h
    cases h
    exact .cons (yields_of_compile first) (ih later)

theorem yields_inList {modes : List Mode} {rules : List Rule}
    (h : Placed.inList (modes.map (Mode.compile grammar)) path = .ok rules) :
    List.Forall₂ (Mode.Yields grammar) modes rules :=
  yields_inListFrom h

/-- The entry of a group has the scopes of its style, qualified, and the rules of its modes. -/
structure EntryOf (grammar : String) (style : GroupStyle Mode) (entry : CaptureRule Rule) : Prop where
  name : ∃ names, List.Forall₂ (fun scope name => scope.qualify grammar = .ok name) style.scopes names ∧
    entry.name = joinNames names
  patterns : List.Forall₂ (Mode.Yields grammar) style.patterns entry.patterns

/-- The entries of a regex are those of its styles, at the same numbers. -/
theorem entries_of_captureRules {field : RegexField} {styles : List (Nat × GroupStyle Mode)}
    {entries : RuleCaptures}
    (h : captureRules grammar field (styles.map fun s => (s.1, s.2.map (Mode.compile grammar))) path =
      .ok entries) : List.Forall₂ (fun s c => s.1 = c.1 ∧ EntryOf grammar s.2 c.2) styles entries := by
  have pairs := List.forall₂_map_left_iff.1 (captureRules_eq_ok_iff.1 h)
  refine pairs.imp fun s c pair => ?_
  obtain ⟨number, made⟩ := pair
  obtain ⟨named, listed⟩ := captureRule_eq_ok_iff.1 made
  exact ⟨number, named, yields_inList listed⟩

/-- Modes that have rules have them in every list. -/
theorem inListFrom_of_yields {modes : List Mode} {rules : List Rule} {i : Nat}
    (h : List.Forall₂ (Mode.Yields grammar) modes rules) :
    Placed.inListFrom i (modes.map (Mode.compile grammar)) path = .ok rules := by
  induction h generalizing i with
  | nil => rfl
  | cons first _ ih =>
    refine Placed.bind_eq_ok_iff.2 ⟨_, first _, ?_⟩
    exact Placed.bind_eq_ok_iff.2 ⟨_, ih, rfl⟩

/-- Entries of styles are made in every field. -/
theorem captureRules_of_entries {field : RegexField} {styles : List (Nat × GroupStyle Mode)}
    {entries : RuleCaptures}
    (h : List.Forall₂ (fun s c => s.1 = c.1 ∧ EntryOf grammar s.2 c.2) styles entries) :
    captureRules grammar field (styles.map fun s => (s.1, s.2.map (Mode.compile grammar))) path =
      .ok entries := by
  refine captureRules_eq_ok_iff.2 (List.forall₂_map_left_iff.2 (h.imp fun s c pair => ?_))
  obtain ⟨number, entry⟩ := pair
  exact ⟨number, captureRule_eq_ok_iff.2 ⟨entry.name, inListFrom_of_yields entry.patterns⟩⟩

/-- A regex compiles to what is emitted for it, whatever its place and its field. -/
theorem regexWithCaptures_eq_ok_iff_emitted {field : RegexField} {elidable : Bool} {pattern : Pattern}
    {declared : List (String × Declaration Mode)} {regex : String × RuleCaptures} :
    regexWithCaptures grammar field elidable pattern (compileDeclarations grammar declared) path =
        .ok regex ↔
      ∃ e, emitted elidable pattern declared = .ok e ∧ regex.1 = e.1 ∧
        List.Forall₂ (fun s c => s.1 = c.1 ∧ EntryOf grammar s.2 c.2) e.2 regex.2 := by
  rw [regexWithCaptures_eq, compileDeclarations_eq_map, emitted_map, bind_eq_ok_iff]
  simp only [Placed.inField_eq_ok_iff]
  constructor
  · rintro ⟨_, mapped, h⟩
    obtain ⟨captures, made, h⟩ := bind_eq_ok_iff.1 h
    cases h
    cases emission : emitted elidable pattern declared with
    | error fault =>
      rw [emission] at mapped
      cases mapped
    | ok e =>
      rw [emission] at mapped
      cases mapped
      exact ⟨e, rfl, rfl, entries_of_captureRules made⟩
  · obtain ⟨text, captures⟩ := regex
    rintro ⟨e, emission, rfl, entries⟩
    refine ⟨e.map (Mode.compile grammar), by rw [emission]; rfl, ?_⟩
    exact bind_eq_ok_iff.2 ⟨captures, captureRules_of_entries entries, rfl⟩

/-- The repository has the rules of its entries under their names. -/
theorem yields_repository {entries : List (String × Entry)} {rules : List (String × Rule)}
    (h : compileRepository grammar entries path = .ok rules) :
    List.Forall₂ (fun e r => e.1 = r.1 ∧ e.2.mode.Yields grammar r.2) entries rules := by
  induction entries generalizing rules with
  | nil =>
    cases h
    exact .nil
  | cons e entries ih =>
    obtain ⟨rule, first, h⟩ := Placed.bind_eq_ok_iff.1 h
    obtain ⟨rest, later, h⟩ := Placed.bind_eq_ok_iff.1 h
    cases h
    rw [Placed.under_apply, Entry.compile_eq] at first
    exact .cons ⟨rfl, yields_of_compile first⟩ (ih later)

/-- A finished grammar has the rules of its modes and entries. -/
theorem yields_compileRules {g : Grammar} {file : GrammarFile}
    (h : g.compileRules grammar [] = .ok file) :
    List.Forall₂ (Mode.Yields grammar) g.patterns file.patterns ∧
      List.Forall₂ (fun e r => e.1 = r.1 ∧ e.2.mode.Yields grammar r.2) g.repository.entries
        file.repository := by
  obtain ⟨patterns, listed, h⟩ := Placed.bind_eq_ok_iff.1 h
  obtain ⟨repository, entered, h⟩ := Placed.bind_eq_ok_iff.1 h
  cases h
  rw [compileEach_eq_map] at listed
  exact ⟨yields_inList listed, yields_repository entered⟩

end Yields

end TextMate
