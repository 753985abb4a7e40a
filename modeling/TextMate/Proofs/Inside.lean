import TextMate.GrammarFile
import TextMate.Proofs.Emission
import TextMate.Proofs.Placement

/-!
# The modes inside a mode

A mode has modes in its list and in what is declared for its captures. In the finished rule the
ones in the list stand at their indices, and the ones that are declared for a capture stand at every
group of that capture, under the number that the group has in the emitted text. `Holds` follows
these places through a mode, whether or not the mode compiles, and `Has` does without them.
-/

set_option autoImplicit false

namespace TextMate

/-- The outer group of the regex that opens a span may be left out, unless the emitted text of the
closing one refers to groups. -/
def elidableBefore {α : Type} : Except Fault (Emission α) → Bool
  | .ok closing => !Regex.hasBackreference closing.1
  | .error _ => true

theorem elidableBefore_map {α β : Type} (g : α → β) (closing : Except Fault (Emission α)) :
    elidableBefore (closing.map (Emission.map g)) = elidableBefore closing := by
  cases closing <;> rfl

/-- Whether the outer group of an opening may be left out is known once the closing has compiled. -/
theorem elidableBefore_of_ok {grammar : String} {path : Path} {field : RegexField}
    {pattern : Pattern} {declared : List (String × Declaration Mode)} {last : String × RuleCaptures}
    (h : regexWithCaptures grammar field true pattern (compileDeclarations grammar declared) path =
      .ok last) :
    elidableBefore (emitted true pattern declared) = !Regex.hasBackreference last.1 := by
  obtain ⟨f, styles, compiled, found, text, -⟩ := regexWithCaptures_eq_ok_iff.1 h
  have made : emitted true pattern (compileDeclarations grammar declared) =
      .ok (GroupStyle.elide true f.text styles) := emitted_eq_ok_iff.2 ⟨f, styles, compiled, found, rfl⟩
  rw [text, ← elidableBefore_map (Mode.compile grammar), ← emitted_map, ← compileDeclarations_eq_map,
    made]
  rfl

namespace Mode

/-- The list of a mode. -/
def inner : Mode → List Mode
  | single _ _ _ contains => contains
  | span _ _ _ _ _ _ contains _ => contains
  | group modes => modes
  | includes _ => []

/-- The scopes of a mode itself, each with its field. -/
def scopes : Mode → List (Field × Scope)
  | single _ scope _ _ => scope.toList.map fun s => (.name, s)
  | span _ _ scope contentScope _ _ _ _ =>
    (scope.toList.map fun s => (.name, s)) ++ contentScope.toList.map fun s => (.contentName, s)
  | group _ | includes _ => []

/-- What is emitted for the regexes of a mode, in the order in which they are compiled. -/
def emissions : Mode → List (RegexField × Except Fault (Emission Mode))
  | single pattern _ captures _ => [(.whole, emitted true pattern captures)]
  | span opening closing _ _ openingCaptures closingCaptures _ _ =>
    [(.closing, emitted true closing closingCaptures),
      (.opening, emitted (elidableBefore (emitted true closing closingCaptures)) opening
        openingCaptures)]
  | group _ | includes _ => []

/-- A property of all modes, from the modes in the list and in the declarations of a mode to the
mode itself. -/
@[elab_as_elim]
theorem ind {motive : Mode → Prop}
    (step : ∀ mode : Mode, (∀ n ∈ mode.inner, motive n) →
      (∀ part ∈ mode.regexes, ∀ e ∈ part.declared, ∀ n ∈ e.2.patterns, motive n) → motive mode)
    (mode : Mode) : motive mode := by
  refine @Mode.rec motive
    (fun declared => ∀ e ∈ declared, ∀ n ∈ e.2.patterns, motive n) (fun modes => ∀ n ∈ modes, motive n)
    (fun e => ∀ n ∈ e.2.patterns, motive n) (fun spec => ∀ n ∈ spec.patterns, motive n)
    ?_ ?_ ?_ ?_ ?_ ?_ ?_ ?_ ?_ ?_ ?_ mode
  · intro pattern scope captures contains declared listed
    exact step _ listed (List.forall_mem_singleton.2 declared)
  · intro opening closing scope contentScope _ _ contains closingLast opened closed listed
    exact step _ listed (List.forall_mem_cons.2 ⟨opened, List.forall_mem_singleton.2 closed⟩)
  · intro modes listed
    exact step _ listed nofun
  · intro target
    exact step _ nofun nofun
  · exact nofun
  · intro e rest head tail
    exact List.forall_mem_cons.2 ⟨head, tail⟩
  · exact nofun
  · intro n rest head tail
    exact List.forall_mem_cons.2 ⟨head, tail⟩
  · intro name spec inside
    exact inside
  · intro scope
    exact nofun
  · intro scope patterns inside
    exact inside

/-- Every emission is that of a regex. -/
theorem part_of_mem_emissions {mode : Mode} {field : RegexField}
    {x : Except Fault (Emission Mode)} (h : (field, x) ∈ mode.emissions) :
    ∃ part ∈ mode.regexes, ∃ elidable, field = part.field ∧
      x = emitted elidable part.pattern part.declared := by
  cases mode with
  | single pattern scope captures contains =>
    cases List.mem_singleton.1 h
    exact ⟨_, List.mem_cons_self, true, rfl, rfl⟩
  | span opening closing scope contentScope openingCaptures closingCaptures contains closingLast =>
    rcases List.mem_cons.1 h with first | second
    · cases first
      exact ⟨_, List.mem_cons_of_mem _ List.mem_cons_self, true, rfl, rfl⟩
    · cases List.mem_singleton.1 second
      exact ⟨_, List.mem_cons_self, _, rfl, rfl⟩
  | group modes => cases h
  | includes target => cases h

/-- Every regex has an emission. -/
theorem emission_of_mem_regexes {mode : Mode} {part : RegexPart} (h : part ∈ mode.regexes) :
    ∃ elidable, (part.field, emitted elidable part.pattern part.declared) ∈ mode.emissions := by
  cases mode with
  | single pattern scope captures contains =>
    cases List.mem_singleton.1 h
    exact ⟨true, List.mem_cons_self⟩
  | span opening closing scope contentScope openingCaptures closingCaptures contains closingLast =>
    rcases List.mem_cons.1 h with first | second
    · cases first
      exact ⟨_, List.mem_cons_of_mem _ List.mem_cons_self⟩
    · cases List.mem_singleton.1 second
      exact ⟨true, List.mem_cons_self⟩
  | group modes => cases h
  | includes target => cases h

/-- The mode at a place inside a mode. -/
inductive Holds : Mode → Path → Mode → Prop where
  | self (mode : Mode) : Holds mode [] mode
  | inner {mode n m : Mode} {i : Nat} {place : Path} :
      mode.inner[i]? = some n → Holds n place m → Holds mode (.pattern i :: place) m
  | capture {mode n m : Mode} {field : RegexField} {e : Emission Mode} {group : Nat}
      {style : GroupStyle Mode} {i : Nat} {place : Path} :
      (field, .ok e) ∈ mode.emissions → (group, style) ∈ e.2 → style.patterns[i]? = some n →
      Holds n place m → Holds mode (.capture field group :: .pattern i :: place) m

/-- A mode is the other or somewhere inside it: in a list, or among the rules that are declared for
a name. -/
inductive Has : Mode → Mode → Prop where
  | self (mode : Mode) : Has mode mode
  | inner {mode n m : Mode} : n ∈ mode.inner → Has n m → Has mode m
  | declared {mode n m : Mode} {part : RegexPart} {name : String} {spec : Declaration Mode} :
      part ∈ mode.regexes → (name, spec) ∈ (NameMap.ofList part.declared).entries →
      n ∈ spec.patterns → Has n m → Has mode m

/-- What has a place in a mode is inside it. -/
theorem has_of_holds {mode m : Mode} {place : Path} (h : mode.Holds place m) : mode.Has m := by
  induction h with
  | self mode => exact .self mode
  | inner listed _ ih => exact .inner (List.mem_of_getElem? listed) ih
  | capture emission mem listed _ ih =>
    obtain ⟨part, isPart, elidable, rfl, ok⟩ := part_of_mem_emissions emission
    obtain ⟨name, spec, entry, rule⟩ :=
      entry_of_mem_patterns ok.symm mem (List.mem_of_getElem? listed)
    exact .declared isPart entry rule ih

end Mode

/-- The mode of an entry. Several modes are the list of one. -/
def Entry.mode : Entry → Mode
  | one mode => mode
  | several modes => .group modes

theorem Entry.compile_eq (grammar : String) (entry : Entry) :
    entry.compile grammar = entry.mode.compile grammar := by
  cases entry <;> rfl

namespace Grammar

/-- The mode at a place in a grammar. -/
inductive Holds (g : Grammar) : Path → Mode → Prop where
  | pattern {n m : Mode} {i : Nat} {place : Path} :
      g.patterns[i]? = some n → n.Holds place m → Holds g (.pattern i :: place) m
  | repository {entry : Entry} {m : Mode} {name : String} {place : Path} :
      g.repository.get? name = some entry → entry.mode.Holds place m →
      Holds g (.repository name :: place) m

/-- A mode is anywhere in a grammar. -/
inductive Has (g : Grammar) (m : Mode) : Prop where
  | pattern {n : Mode} : n ∈ g.patterns → n.Has m → Has g m
  | repository {name : String} {entry : Entry} :
      g.repository.get? name = some entry → entry.mode.Has m → Has g m

theorem has_of_holds {g : Grammar} {place : Path} {m : Mode} (h : g.Holds place m) : g.Has m := by
  cases h with
  | pattern listed inside => exact .pattern (List.mem_of_getElem? listed) (Mode.has_of_holds inside)
  | repository entry inside => exact .repository entry (Mode.has_of_holds inside)

end Grammar

end TextMate
