import TextMate.Proofs.Inside

/-!
# Everything that is wrong with a grammar

A mode fails on its own in a field if its regex or what is declared for it cannot be made sense of, or
if a scope is blank. `failures` collects what a compiler would report if it did not stop at the first
failure, in the order in which a grammar is compiled. What it lists are modes that fail on their own,
each at its place (`mem_failures`), and none that has a place is left out (`exists_failure`).
-/

set_option autoImplicit false

namespace TextMate

/-- A scope of blanks only has no name. -/
def Scope.IsBlank (s : Scope) : Prop :=
  ∀ c ∈ s.text.toList, Unicode.isBlank c = true

instance (s : Scope) : Decidable s.IsBlank :=
  inferInstanceAs (Decidable (∀ c ∈ s.text.toList, Unicode.isBlank c = true))

theorem Scope.qualify_fails_iff {s : Scope} {grammar : String} {fault : Fault} :
    s.qualify grammar = .error fault ↔ fault = .emptyScope ∧ s.IsBlank := by
  rw [qualify_eq_error_iff, Text.trim_eq_empty_iff]
  rfl

/-- What is wrong with a regex and its captures. -/
inductive RegexPart.Fails (part : RegexPart) : Fault → Prop where
  | pattern {fault : Fault} : part.pattern.compile = .error fault → Fails part fault
  | captures {f : Fragment} {fault : Fault} : part.pattern.compile = .ok f →
      f.styles (NameMap.ofList part.declared) = .error fault → Fails part fault
  | highlight {id : CaptureId} {scopes : List Scope} {scope : Scope} :
      (id, scopes) ∈ part.pattern.highlights → scope ∈ scopes → scope.IsBlank →
      Fails part .emptyScope
  | declared {name : String} {spec : Declaration Mode} {scope : Scope} :
      (name, spec) ∈ (NameMap.ofList part.declared).entries → spec.scope? = some scope →
      scope.IsBlank → Fails part .emptyScope

/-- The mode fails on its own in a field. -/
inductive Mode.Fails (mode : Mode) : Field → Fault → Prop where
  | regex {part : RegexPart} {fault : Fault} :
      part ∈ mode.regexes → part.Fails fault → Fails mode (.regex part.field) fault
  | scope {field : Field} {scope : Scope} :
      (field, scope) ∈ mode.scopes → scope.IsBlank → Fails mode field .emptyScope

/-- The failures of something, if that stands at a path. -/
abbrev Survey := Path → List Failure

namespace Survey

/-- Blank scopes of one field. -/
def ofScopes (field : Field) (scopes : List Scope) : Survey := fun path =>
  (scopes.filter fun scope => decide scope.IsBlank).map fun _ => ⟨path, field, .emptyScope⟩

/-- The failures of a list of rules, where the first has the index `i`. -/
def inListFrom (i : Nat) : List Survey → Survey
  | [] => fun _ => []
  | s :: ss => fun path => s (path ++ [.pattern i]) ++ inListFrom (i + 1) ss path

def inList (ss : List Survey) : Survey :=
  inListFrom 0 ss

/-- The failures of the style of a group. -/
def ofStyle (field : RegexField) (group : Nat) (style : GroupStyle Survey) : Survey := fun path =>
  ofScopes (.regex field) style.scopes path ++ inList style.patterns (path ++ [.capture field group])

/-- The failures of a regex: it has no text and no styles, or some of its styles fail. -/
def ofRegex (field : RegexField) : Except Fault (Emission Survey) → Survey
  | .error fault => fun path => [⟨path, .regex field, fault⟩]
  | .ok e => fun path => e.2.flatMap fun s => ofStyle field s.1 s.2 path

variable {path : Path} {failure : Failure}

theorem mem_ofScopes {field : Field} {scopes : List Scope} :
    failure ∈ ofScopes field scopes path ↔
      failure = ⟨path, field, .emptyScope⟩ ∧ ∃ scope ∈ scopes, scope.IsBlank := by
  simp only [ofScopes, List.mem_map, List.mem_filter, decide_eq_true_eq]
  constructor
  · rintro ⟨scope, blank, rfl⟩
    exact ⟨rfl, scope, blank⟩
  · rintro ⟨rfl, scope, blank⟩
    exact ⟨scope, blank, rfl⟩

theorem mem_inListFrom {i : Nat} {ss : List Survey} :
    failure ∈ inListFrom i ss path ↔ ∃ (n : Nat) (s : Survey), ss[n]? = some s ∧
      failure ∈ s (path ++ [.pattern (i + n)]) := by
  induction ss generalizing i with
  | nil => simp [inListFrom]
  | cons s ss ih =>
    rw [inListFrom, List.mem_append, ih]
    constructor
    · rintro (first | ⟨n, t, listed, later⟩)
      · exact ⟨0, s, rfl, first⟩
      · refine ⟨n + 1, t, listed, ?_⟩
        rwa [Nat.add_comm n 1, ← Nat.add_assoc]
    · rintro ⟨n, t, listed, mem⟩
      cases n with
      | zero =>
        cases listed
        exact .inl mem
      | succ n =>
        rw [Nat.add_comm n 1, ← Nat.add_assoc] at mem
        exact .inr ⟨n, t, listed, mem⟩

theorem mem_inList {ss : List Survey} :
    failure ∈ inList ss path ↔ ∃ (n : Nat) (s : Survey), ss[n]? = some s ∧
      failure ∈ s (path ++ [.pattern n]) := by
  simp only [inList, mem_inListFrom, Nat.zero_add]

end Survey

mutual

/-- The failures of a mode and of all modes that have a place in it. -/
def Mode.failures : Mode → Survey
  | .single pattern scope captures contains => fun path =>
    Survey.ofRegex .whole (emitted true pattern (failuresDeclared captures)) path ++
      Survey.ofScopes .name scope.toList path ++
      Survey.inList (failuresEach contains) path
  | .span opening closing scope contentScope openingCaptures closingCaptures contains _ =>
    fun path =>
      Survey.ofRegex .closing (emitted true closing (failuresDeclared closingCaptures)) path ++
      Survey.ofRegex .opening
        (emitted (elidableBefore (emitted true closing (failuresDeclared closingCaptures))) opening
          (failuresDeclared openingCaptures)) path ++
      Survey.ofScopes .name scope.toList path ++
      Survey.ofScopes .contentName contentScope.toList path ++
      Survey.inList (failuresEach contains) path
  | .group modes => Survey.inList (failuresEach modes)
  | .includes _ => fun _ => []
termination_by structural mode => mode

/-- The failures of several modes. -/
def failuresEach : List Mode → List Survey
  | [] => []
  | mode :: modes => mode.failures :: failuresEach modes
termination_by structural modes => modes

/-- Declarations with the failures of their modes. -/
def failuresDeclared : List (String × Declaration Mode) → List (String × Declaration Survey)
  | [] => []
  | (name, .scope scope) :: rest => (name, .scope scope) :: failuresDeclared rest
  | (name, .rule scope modes) :: rest =>
    (name, .rule scope (failuresEach modes)) :: failuresDeclared rest
termination_by structural declared => declared

end

theorem failuresEach_eq_map (modes : List Mode) : failuresEach modes = modes.map Mode.failures := by
  induction modes with
  | nil => rfl
  | cons mode modes ih => exact congrArg (mode.failures :: ·) ih

theorem failuresDeclared_eq_map (declared : List (String × Declaration Mode)) :
    failuresDeclared declared = declared.map fun e => (e.1, e.2.map Mode.failures) := by
  induction declared with
  | nil => rfl
  | cons e rest ih =>
    obtain ⟨name, spec⟩ := e
    cases spec with
    | scope s => rw [failuresDeclared, ih, List.map_cons, Declaration.map]
    | rule s modes =>
      rw [failuresDeclared, ih, List.map_cons, Declaration.map, failuresEach_eq_map]

section Parts

variable (pattern opening closing : Pattern) (scope contentScope : Option Scope)
  (captures openingCaptures closingCaptures : List (String × Declaration Mode))
  (contains : List Mode) (closingLast : Bool) (path : Path)

theorem Mode.failures_single :
    (single pattern scope captures contains).failures path =
      Survey.ofRegex .whole ((emitted true pattern captures).map (Emission.map failures)) path ++
      (Survey.ofScopes .name scope.toList path ++
      Survey.inList (contains.map failures) path) := by
  simp only [failures, failuresDeclared_eq_map, failuresEach_eq_map, emitted_map,
    List.append_assoc]

theorem Mode.failures_span :
    (span opening closing scope contentScope openingCaptures closingCaptures contains
        closingLast).failures path =
      Survey.ofRegex .closing
        ((emitted true closing closingCaptures).map (Emission.map failures)) path ++
      (Survey.ofRegex .opening
        ((emitted (elidableBefore (emitted true closing closingCaptures)) opening
          openingCaptures).map (Emission.map failures)) path ++
      (Survey.ofScopes .name scope.toList path ++
      (Survey.ofScopes .contentName contentScope.toList path ++
      Survey.inList (contains.map failures) path))) := by
  simp only [failures, failuresDeclared_eq_map, failuresEach_eq_map, emitted_map,
    elidableBefore_map, List.append_assoc]

theorem Mode.failures_group (modes : List Mode) :
    (group modes).failures path = Survey.inList (modes.map failures) path := by
  rw [failures, failuresEach_eq_map]

end Parts

/-- The failures of a mode: first those of its regexes and of the rules in their styles, then those
of its own scopes, then those of its list. -/
theorem Mode.failures_eq (mode : Mode) (path : Path) :
    mode.failures path =
      mode.emissions.flatMap (fun r =>
        Survey.ofRegex r.1 (r.2.map (Emission.map Mode.failures)) path) ++
      mode.scopes.flatMap (fun s => Survey.ofScopes s.1 [s.2] path) ++
      Survey.inList (mode.inner.map Mode.failures) path := by
  have own (field : Field) (scope : Option Scope) :
      (scope.toList.map fun s => (field, s)).flatMap (fun s => Survey.ofScopes s.1 [s.2] path) =
        Survey.ofScopes field scope.toList path := by
    cases scope <;> simp [Survey.ofScopes]
  cases mode with
  | single pattern scope captures contains =>
    rw [failures_single, scopes, own]
    simp [emissions, inner]
  | span opening closing scope contentScope openingCaptures closingCaptures contains closingLast =>
    rw [failures_span, scopes, List.flatMap_append, own, own]
    simp [emissions, inner]
  | group modes =>
    rw [failures_group]
    simp [emissions, scopes, inner]
  | includes target =>
    simp [failures, emissions, scopes, inner, Survey.inList, Survey.inListFrom]

/-- What the survey lists for a mode itself. A blank scope in a style only shows if there are styles. -/
inductive Mode.Shows (mode : Mode) : Field → Fault → Prop where
  | regex {field : RegexField} {fault : Fault} :
      (field, .error fault) ∈ mode.emissions → Shows mode (.regex field) fault
  | style {field : RegexField} {e : Emission Mode} {group : Nat} {style : GroupStyle Mode}
      {scope : Scope} : (field, .ok e) ∈ mode.emissions → (group, style) ∈ e.2 →
      scope ∈ style.scopes → scope.IsBlank → Shows mode (.regex field) .emptyScope
  | scope {field : Field} {scope : Scope} :
      (field, scope) ∈ mode.scopes → scope.IsBlank → Shows mode field .emptyScope

section Members

variable {mode m : Mode} {path : Path} {failure : Failure}

theorem Survey.mem_inList_map {modes : List Mode} :
    failure ∈ inList (modes.map Mode.failures) path ↔ ∃ (i : Nat) (n : Mode),
      modes[i]? = some n ∧ failure ∈ n.failures (path ++ [.pattern i]) := by
  simp only [mem_inList, List.getElem?_map, Option.map_eq_some_iff]
  constructor
  · rintro ⟨i, _, ⟨n, listed, rfl⟩, mem⟩
    exact ⟨i, n, listed, mem⟩
  · rintro ⟨i, n, listed, mem⟩
    exact ⟨i, _, ⟨n, listed, rfl⟩, mem⟩

/-- The failures of the styles of a regex: blank scopes, and those of the rules in the styles. -/
theorem Survey.mem_ofRegex_map {field : RegexField} {e : Emission Mode} :
    failure ∈ ofRegex field (.ok (e.map Mode.failures)) path ↔ ∃ group style, (group, style) ∈ e.2 ∧
      ((failure = ⟨path, .regex field, .emptyScope⟩ ∧ ∃ scope ∈ style.scopes, scope.IsBlank) ∨
        ∃ (i : Nat) (n : Mode), style.patterns[i]? = some n ∧
          failure ∈ n.failures (path ++ [.capture field group] ++ [.pattern i])) := by
  simp only [ofRegex, Emission.map, List.mem_flatMap, List.mem_map, ofStyle, List.mem_append,
    mem_ofScopes, GroupStyle.map]
  constructor
  · rintro ⟨_, ⟨⟨group, style⟩, mem, rfl⟩, own | inside⟩
    · exact ⟨group, style, mem, .inl own⟩
    · exact ⟨group, style, mem, .inr (mem_inList_map.1 inside)⟩
  · rintro ⟨group, style, mem, own | inside⟩
    · exact ⟨_, ⟨⟨group, style⟩, mem, rfl⟩, .inl own⟩
    · exact ⟨_, ⟨⟨group, style⟩, mem, rfl⟩, .inr (mem_inList_map.2 inside)⟩

/-- A failure is one of the mode itself, of a mode in its list, or of a mode in one of its styles. -/
theorem Mode.mem_failures_iff :
    failure ∈ mode.failures path ↔
      (failure.path = path ∧ mode.Shows failure.field failure.fault) ∨
      (∃ (i : Nat) (n : Mode), mode.inner[i]? = some n ∧
        failure ∈ n.failures (path ++ [.pattern i])) ∨
      ∃ (field : RegexField) (e : Emission Mode) (group : Nat) (style : GroupStyle Mode) (i : Nat)
        (n : Mode), (field, .ok e) ∈ mode.emissions ∧ (group, style) ∈ e.2 ∧
          style.patterns[i]? = some n ∧
          failure ∈ n.failures (path ++ [.capture field group] ++ [.pattern i]) := by
  rw [failures_eq, List.mem_append, List.mem_append, List.mem_flatMap, List.mem_flatMap,
    Survey.mem_inList_map]
  constructor
  · rintro ((⟨⟨field, x⟩, emission, mem⟩ | ⟨⟨field, scope⟩, own, mem⟩) | listed)
    · cases x with
      | error fault =>
        cases List.mem_singleton.1 mem
        exact .inl ⟨rfl, .regex emission⟩
      | ok e =>
        obtain ⟨group, style, styled, ⟨rfl, scope, on, blank⟩ | ⟨i, n, rule, mem⟩⟩ :=
          Survey.mem_ofRegex_map.1 mem
        · exact .inl ⟨rfl, .style emission styled on blank⟩
        · exact .inr (.inr ⟨field, e, group, style, i, n, emission, styled, rule, mem⟩)
    · obtain ⟨rfl, scope', same, blank⟩ := Survey.mem_ofScopes.1 mem
      cases List.mem_singleton.1 same
      exact .inl ⟨rfl, .scope own blank⟩
    · exact .inr (.inl listed)
  · rintro (⟨rfl, shown⟩ | listed | ⟨field, e, group, style, i, n, emission, styled, rule, mem⟩)
    · obtain ⟨path, field, fault⟩ := failure
      cases shown with
      | regex emission => exact .inl (.inl ⟨_, emission, List.mem_singleton.2 rfl⟩)
      | style emission styled on blank =>
        refine .inl (.inl ⟨_, emission, ?_⟩)
        exact Survey.mem_ofRegex_map.2 ⟨_, _, styled, .inl ⟨rfl, _, on, blank⟩⟩
      | scope own blank =>
        refine .inl (.inr ⟨_, own, ?_⟩)
        exact Survey.mem_ofScopes.2 ⟨rfl, _, List.mem_singleton.2 rfl, blank⟩
    · exact .inr listed
    · refine .inl (.inl ⟨_, emission, ?_⟩)
      exact Survey.mem_ofRegex_map.2 ⟨_, _, styled, .inr ⟨_, _, rule, mem⟩⟩

/-- What the survey lists for a mode is a failure of that mode. -/
theorem Mode.fails_of_shows {field : Field} {fault : Fault} (h : mode.Shows field fault) :
    mode.Fails field fault := by
  cases h with
  | regex emission =>
    obtain ⟨part, isPart, elidable, rfl, fails⟩ := part_of_mem_emissions emission
    refine .regex isPart ?_
    rcases emitted_eq_error_iff.1 fails.symm with pattern | ⟨f, compiled, captures⟩
    · exact .pattern pattern
    · exact .captures compiled captures
  | style emission styled on blank =>
    obtain ⟨part, isPart, elidable, rfl, ok⟩ := part_of_mem_emissions emission
    refine .regex isPart ?_
    rcases origin_of_mem_scopes ok.symm styled on with ⟨id, scopes, highlight, on⟩ |
      ⟨name, spec, entry, isDeclared⟩
    · exact .highlight highlight on blank
    · exact .declared entry isDeclared blank
  | scope own blank => exact .scope own blank

/-- If a mode fails in a field then the survey lists a failure of that field. -/
theorem Mode.exists_shows_of_fails {field : Field} {fault : Fault} (h : mode.Fails field fault) :
    ∃ shown, mode.Shows field shown := by
  cases h with
  | @regex part _ isPart fails =>
    obtain ⟨elidable, emission⟩ := emission_of_mem_regexes isPart
    cases result : emitted elidable part.pattern part.declared with
    | error shown => exact ⟨shown, .regex (result ▸ emission)⟩
    | ok e =>
      rw [result] at emission
      cases fails with
      | pattern fails =>
        obtain ⟨f, styles, compiled, -⟩ := emitted_eq_ok_iff.1 result
        cases fails.symm.trans compiled
      | captures compiled fails =>
        obtain ⟨f, styles, compiled', found, -⟩ := emitted_eq_ok_iff.1 result
        cases compiled.symm.trans compiled'
        cases fails.symm.trans found
      | highlight highlight on blank =>
        obtain ⟨group, style, styled, on⟩ := exists_style_of_highlight result highlight on
        exact ⟨_, .style emission styled on blank⟩
      | declared entry isDeclared blank =>
        obtain ⟨group, style, styled, -, declaredOn⟩ := exists_style_of_entry result entry
        exact ⟨_, .style emission styled (declaredOn _ isDeclared) blank⟩
  | scope own blank => exact ⟨_, .scope own blank⟩

/-- A rule in a style is among the modes of a declaration. -/
theorem Mode.declared_of_mem_emissions {field : RegexField} {e : Emission Mode} {group : Nat}
    {style : GroupStyle Mode} {n : Mode} (emission : (field, .ok e) ∈ mode.emissions)
    (styled : (group, style) ∈ e.2) (rule : n ∈ style.patterns) :
    ∃ part ∈ mode.regexes, ∃ d ∈ part.declared, n ∈ d.2.patterns := by
  obtain ⟨part, isPart, elidable, rfl, ok⟩ := part_of_mem_emissions emission
  obtain ⟨name, spec, entry, rule⟩ := entry_of_mem_patterns ok.symm styled rule
  exact ⟨part, isPart, (name, spec), NameMap.mem_of_get?_ofList (NameMap.mem_entries_iff.1 entry), rule⟩

/-- Every failure that is listed is that of a mode which fails on its own, at its place. -/
theorem Mode.mem_failures (h : failure ∈ mode.failures path) :
    ∃ place n, mode.Holds place n ∧ failure.path = path ++ place ∧
      n.Fails failure.field failure.fault := by
  induction mode using Mode.ind generalizing path with
  | step mode inList inDeclared =>
    rcases mem_failures_iff.1 h with ⟨here, shown⟩ | ⟨i, n, listed, mem⟩ |
      ⟨field, e, group, style, i, n, emission, styled, rule, mem⟩
    · exact ⟨[], mode, .self mode, by rw [here, List.append_nil], fails_of_shows shown⟩
    · obtain ⟨place, m, held, at', fails⟩ := inList n (List.mem_of_getElem? listed) mem
      exact ⟨_, m, .inner listed held, by rw [at', List.append_assoc]; rfl, fails⟩
    · obtain ⟨part, isPart, d, isDeclared, modes⟩ :=
        declared_of_mem_emissions emission styled (List.mem_of_getElem? rule)
      obtain ⟨place, m, held, at', fails⟩ := inDeclared part isPart d isDeclared n modes mem
      refine ⟨_, m, .capture emission styled rule held, ?_, fails⟩
      rw [at', List.append_assoc, List.append_assoc]
      rfl

/-- A mode that fails on its own and has a place is listed there, with one failure at least for each
field in which it fails. -/
theorem Mode.exists_failure {place : Path} {field : Field} {fault : Fault}
    (h : mode.Holds place m) (fails : m.Fails field fault) (path : Path) :
    ∃ shown, ⟨path ++ place, field, shown⟩ ∈ mode.failures path := by
  induction h generalizing path with
  | self mode =>
    obtain ⟨shown, h⟩ := exists_shows_of_fails fails
    exact ⟨shown, mem_failures_iff.2 (.inl ⟨List.append_nil path, h⟩)⟩
  | inner listed _ ih =>
    obtain ⟨shown, mem⟩ := ih fails (path ++ [.pattern _])
    rw [List.append_assoc] at mem
    exact ⟨shown, mem_failures_iff.2 (.inr (.inl ⟨_, _, listed, mem⟩))⟩
  | @capture _ _ _ field _ group _ i _ emission styled rule _ ih =>
    obtain ⟨shown, mem⟩ := ih fails (path ++ [.capture field group] ++ [.pattern i])
    have place := mem_failures_iff.2 (.inr (.inr ⟨_, _, _, _, _, _, emission, styled, rule, mem⟩))
    rw [List.append_assoc, List.append_assoc] at place
    exact ⟨shown, place⟩

/-- If no mode that has a place fails on its own then every mode inside has one. -/
theorem Mode.exists_holds_of_has (h : mode.Has m)
    (sound : ∀ place n field fault, mode.Holds place n → ¬ n.Fails field fault) :
    ∃ place, mode.Holds place m := by
  induction h with
  | self mode => exact ⟨[], .self mode⟩
  | inner listed _ ih =>
    obtain ⟨i, listed⟩ := List.getElem?_of_mem listed
    obtain ⟨place, held⟩ := ih fun place n field fault held =>
      sound _ n field fault (.inner listed held)
    exact ⟨_, .inner listed held⟩
  | @declared mode n m part name spec isPart entry rule _ ih =>
    obtain ⟨elidable, emission⟩ := emission_of_mem_regexes isPart
    cases result : emitted elidable part.pattern part.declared with
    | error fault =>
      rw [result] at emission
      exact absurd (fails_of_shows (.regex emission)) (sound [] mode _ _ (.self mode))
    | ok e =>
      rw [result] at emission
      obtain ⟨group, style, styled, patterns, -⟩ := exists_style_of_entry result entry
      obtain ⟨i, rule⟩ := List.getElem?_of_mem rule
      rw [← patterns] at rule
      obtain ⟨place, held⟩ := ih fun place n field fault held =>
        sound _ n field fault (.capture emission styled rule held)
      exact ⟨_, .capture emission styled rule held⟩

end Members

end TextMate
