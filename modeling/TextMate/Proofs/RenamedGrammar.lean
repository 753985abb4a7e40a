import TextMate.Proofs.Inside
import TextMate.Proofs.Renaming

/-!
# Grammars with other serial numbers

A rule holds no serial number, so a grammar compiles to the same rules or fails with the same error
whatever numbers its captures have, as long as different ones stay different
(`grammar_compile_rename`).
-/

set_option autoImplicit false

namespace TextMate

mutual

/-- The mode with other serial numbers in all its patterns. -/
def Mode.rename (ρ : Nat → Nat) : Mode → Mode
  | .single pattern scope captures contains =>
    .single (pattern.rename ρ) scope (renameDeclared ρ captures) (renameEach ρ contains)
  | .span opening closing scope contentScope openingCaptures closingCaptures contains
      closingLast =>
    .span (opening.rename ρ) (closing.rename ρ) scope contentScope
      (renameDeclared ρ openingCaptures) (renameDeclared ρ closingCaptures) (renameEach ρ contains)
      closingLast
  | .group modes => .group (renameEach ρ modes)
  | .includes target => .includes target
termination_by structural mode => mode

/-- Several modes with other serial numbers. -/
def renameEach (ρ : Nat → Nat) : List Mode → List Mode
  | [] => []
  | mode :: modes => mode.rename ρ :: renameEach ρ modes
termination_by structural modes => modes

/-- Declarations with other serial numbers in their modes. -/
def renameDeclared (ρ : Nat → Nat) :
    List (String × Declaration Mode) → List (String × Declaration Mode)
  | [] => []
  | (name, .scope scope) :: rest => (name, .scope scope) :: renameDeclared ρ rest
  | (name, .rule scope modes) :: rest =>
    (name, .rule scope (renameEach ρ modes)) :: renameDeclared ρ rest
termination_by structural declared => declared

end

theorem renameEach_eq_map (ρ : Nat → Nat) (modes : List Mode) :
    renameEach ρ modes = modes.map (Mode.rename ρ) := by
  induction modes with
  | nil => rfl
  | cons mode modes ih => exact congrArg (mode.rename ρ :: ·) ih

theorem renameDeclared_eq_map (ρ : Nat → Nat) (declared : List (String × Declaration Mode)) :
    renameDeclared ρ declared = declared.map fun e => (e.1, e.2.map (Mode.rename ρ)) := by
  induction declared with
  | nil => rfl
  | cons e rest ih =>
    obtain ⟨name, spec⟩ := e
    cases spec with
    | scope s => rw [renameDeclared, ih, List.map_cons, Declaration.map]
    | rule s modes =>
      rw [renameDeclared, ih, List.map_cons, Declaration.map, renameEach_eq_map]

def Entry.rename (ρ : Nat → Nat) : Entry → Entry
  | one mode => .one (mode.rename ρ)
  | several modes => .several (modes.map (Mode.rename ρ))

/-- The grammar with other serial numbers in all its patterns. -/
def Grammar.rename (ρ : Nat → Nat) (g : Grammar) : Grammar :=
  { g with
    patterns := g.patterns.map (Mode.rename ρ)
    repository := g.repository.map (Entry.rename ρ) }

/-- The serial numbers in the patterns of a mode and of the modes inside it. -/
def Mode.serials (mode : Mode) : Set Nat :=
  {n | ∃ m, mode.Has m ∧ ∃ part ∈ m.regexes, n ∈ part.pattern.serials}

/-- The serial numbers in all patterns of a grammar. -/
def Grammar.serials (g : Grammar) : Set Nat :=
  {n | ∃ m, g.Has m ∧ ∃ part ∈ m.regexes, n ∈ part.pattern.serials}

section Modes

variable {ρ : Nat → Nat} {grammar : String} {mode n : Mode}

theorem Mode.serials_part {part : RegexPart} (isPart : part ∈ mode.regexes) :
    {n | n ∈ part.pattern.serials} ⊆ mode.serials :=
  fun _ own => ⟨mode, .self mode, part, isPart, own⟩

/-- What is inside a mode has no other numbers. -/
theorem Mode.serials_subset (has : ∀ m, n.Has m → mode.Has m) : n.serials ⊆ mode.serials :=
  fun _ ⟨m, held, own⟩ => ⟨m, has m held, own⟩

/-- Declarations that say the same of every name make the same regex. -/
theorem regexWithCaptures_congr {field : RegexField} {elidable : Bool} {pattern pattern' : Pattern}
    {declared declared' : List (String × Declaration (Placed Rule))}
    (h : emitted elidable pattern' declared' = emitted elidable pattern declared) :
    regexWithCaptures grammar field elidable pattern' declared' =
      regexWithCaptures grammar field elidable pattern declared := by
  funext path
  rw [regexWithCaptures_eq, regexWithCaptures_eq, h]

/-- The rules of the declared modes are the same for every name. -/
theorem compileDeclarations_rename {declared : List (String × Declaration Mode)}
    (h : ∀ name spec, (name, spec) ∈ (NameMap.ofList declared).entries →
      ∀ n ∈ spec.patterns, (n.rename ρ).compile grammar = n.compile grammar) :
    NameMap.ofList (compileDeclarations grammar (renameDeclared ρ declared)) =
      NameMap.ofList (compileDeclarations grammar declared) := by
  refine NameMap.ext_get? fun name => ?_
  rw [compileDeclarations_eq_map, compileDeclarations_eq_map, renameDeclared_eq_map,
    NameMap.get?_ofList_map, NameMap.get?_ofList_map, NameMap.get?_ofList_map, Option.map_map]
  refine Option.map_congr fun spec found => ?_
  have same := h name spec (NameMap.mem_entries_iff.2 found)
  cases spec with
  | scope s => rfl
  | rule s modes =>
    refine congrArg (Declaration.rule s) ?_
    rw [List.map_map]
    exact List.map_congr_left same

/-- A regex of a mode is the same with other serial numbers. -/
theorem regexWithCaptures_rename {part : RegexPart} {elidable : Bool}
    (apart : Set.InjOn ρ {n | n ∈ part.pattern.serials})
    (h : ∀ name spec, (name, spec) ∈ (NameMap.ofList part.declared).entries →
      ∀ n ∈ spec.patterns, (n.rename ρ).compile grammar = n.compile grammar) :
    regexWithCaptures grammar part.field elidable (part.pattern.rename ρ)
        (compileDeclarations grammar (renameDeclared ρ part.declared)) =
      regexWithCaptures grammar part.field elidable part.pattern
        (compileDeclarations grammar part.declared) := by
  refine regexWithCaptures_congr ?_
  rw [emitted_rename elidable apart]
  unfold emitted
  rw [compileDeclarations_rename h]

/-- A mode compiles to the same rule, or fails with the same failure, at every place. -/
theorem mode_compile_rename (apart : Set.InjOn ρ mode.serials) :
    (mode.rename ρ).compile grammar = mode.compile grammar := by
  induction mode using Mode.ind with
  | step mode inList inDeclared =>
    have each : compileEach grammar (renameEach ρ mode.inner) = compileEach grammar mode.inner := by
      rw [compileEach_eq_map, compileEach_eq_map, renameEach_eq_map, List.map_map]
      refine List.map_congr_left fun n mem => ?_
      exact inList n mem (apart.mono (Mode.serials_subset fun m held => .inner mem held))
    have regex (part : RegexPart) (isPart : part ∈ mode.regexes) (elidable : Bool) :
        regexWithCaptures grammar part.field elidable (part.pattern.rename ρ)
            (compileDeclarations grammar (renameDeclared ρ part.declared)) =
          regexWithCaptures grammar part.field elidable part.pattern
            (compileDeclarations grammar part.declared) := by
      refine regexWithCaptures_rename (apart.mono (Mode.serials_part isPart)) ?_
      intro name spec entry n rule
      have isDeclared := NameMap.mem_of_get?_ofList (NameMap.mem_entries_iff.1 entry)
      exact inDeclared part isPart _ isDeclared n rule
        (apart.mono (Mode.serials_subset fun m held => .declared isPart entry rule held))
    cases mode with
    | single pattern scope captures contains =>
      have whole : regexWithCaptures grammar .whole true (pattern.rename ρ)
          (compileDeclarations grammar (renameDeclared ρ captures)) =
          regexWithCaptures grammar .whole true pattern (compileDeclarations grammar captures) :=
        regex ⟨.whole, pattern, captures⟩ List.mem_cons_self true
      have listed : compileEach grammar (renameEach ρ contains) = compileEach grammar contains := each
      rw [Mode.rename, Mode.compile, Mode.compile, whole, listed]
    | span opening closing scope contentScope openingCaptures closingCaptures contains closingLast =>
      have closed : regexWithCaptures grammar .closing true (closing.rename ρ)
          (compileDeclarations grammar (renameDeclared ρ closingCaptures)) =
          regexWithCaptures grammar .closing true closing
            (compileDeclarations grammar closingCaptures) :=
        regex ⟨.closing, closing, closingCaptures⟩ (List.mem_cons_of_mem _ List.mem_cons_self) true
      have opened (elidable : Bool) : regexWithCaptures grammar .opening elidable (opening.rename ρ)
          (compileDeclarations grammar (renameDeclared ρ openingCaptures)) =
          regexWithCaptures grammar .opening elidable opening
            (compileDeclarations grammar openingCaptures) :=
        regex ⟨.opening, opening, openingCaptures⟩ List.mem_cons_self elidable
      have listed : compileEach grammar (renameEach ρ contains) = compileEach grammar contains := each
      simp only [Mode.rename, Mode.compile, closed, opened, listed]
    | group modes =>
      have listed : compileEach grammar (renameEach ρ modes) = compileEach grammar modes := each
      rw [Mode.rename, Mode.compile, Mode.compile, listed]
    | includes target => rfl

end Modes

theorem entry_compile_rename {ρ : Nat → Nat} {grammar : String} {entry : Entry}
    (apart : Set.InjOn ρ entry.mode.serials) :
    (entry.rename ρ).compile grammar = entry.compile grammar := by
  have mode : (entry.rename ρ).mode = entry.mode.rename ρ := by
    cases entry with
    | one mode => rfl
    | several modes => exact congrArg Mode.group (renameEach_eq_map ρ modes).symm
  rw [Entry.compile_eq, Entry.compile_eq, mode, mode_compile_rename apart]

/-- What is inside a grammar has no other numbers. -/
theorem Grammar.serials_subset {g : Grammar} {n : Mode} (has : ∀ m, n.Has m → g.Has m) :
    n.serials ⊆ g.serials :=
  fun _ ⟨m, held, own⟩ => ⟨m, has m held, own⟩

theorem compileRepository_rename {ρ : Nat → Nat} {grammar : String} {entries : List (String × Entry)}
    (h : ∀ e ∈ entries, (e.2.rename ρ).compile grammar = e.2.compile grammar) :
    compileRepository grammar (entries.map fun e => (e.1, e.2.rename ρ)) =
      compileRepository grammar entries := by
  induction entries with
  | nil => rfl
  | cons e entries ih =>
    obtain ⟨head, tail⟩ := List.forall_mem_cons.1 h
    rw [List.map_cons, compileRepository, compileRepository, head, ih tail]

/-- A grammar compiles to the same finished grammar, or fails with the same error, if different
serial numbers stay different. -/
theorem grammar_compile_rename {g : Grammar} {ρ : Nat → Nat} (apart : Set.InjOn ρ g.serials) :
    (g.rename ρ).compile = g.compile := by
  have rules (segment : String) : (g.rename ρ).compileRules segment = g.compileRules segment := by
    have listed : compileEach segment (g.patterns.map (Mode.rename ρ)) =
        compileEach segment g.patterns := by
      rw [compileEach_eq_map, compileEach_eq_map, List.map_map]
      refine List.map_congr_left fun n mem => ?_
      exact mode_compile_rename (apart.mono (Grammar.serials_subset fun m held => .pattern mem held))
    have repository : compileRepository segment (g.repository.map (Entry.rename ρ)).entries =
        compileRepository segment g.repository.entries := by
      refine compileRepository_rename fun e mem => ?_
      have found : g.repository.get? e.1 = some e.2 := NameMap.mem_entries_iff.1 mem
      exact entry_compile_rename (apart.mono (Grammar.serials_subset fun m held => .repository found held))
    unfold Grammar.compileRules Grammar.rename
    rw [listed, repository]
  have segment : (g.rename ρ).segment = g.segment := rfl
  unfold Grammar.compile
  rw [segment]
  cases g.segment with
  | error fault => rfl
  | ok segment => simp only [rules]

end TextMate
