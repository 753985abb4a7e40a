import TextMate.Proofs.Inside

/-!
# Places in the finished grammar

A place in a grammar is the place of a rule in the finished grammar: the rule that stands there is
the rule of the mode that has the place (`at?_compile`).
-/

set_option autoImplicit false

namespace TextMate

namespace Rule

/-- The list of a rule. -/
def inner : Rule → List Rule
  | single _ _ _ patterns => patterns
  | span _ _ _ _ _ _ patterns _ => patterns
  | list patterns => patterns
  | includes _ => []

/-- The style of a group of a regex. -/
def style? (rule : Rule) (field : RegexField) (group : Nat) : Option (CaptureRule Rule) :=
  (rule.regexes.lookup field).bind fun regex => regex.2.lookup group

/-- The rule at a place inside a rule. -/
def at? : Rule → Path → Option Rule
  | rule, [] => some rule
  | rule, .pattern i :: place => rule.inner[i]?.bind fun r => r.at? place
  | rule, .capture field group :: .pattern i :: place =>
    (rule.style? field group).bind fun style => style.patterns[i]?.bind fun r => r.at? place
  | _, _ => none

end Rule

/-- The rule at a place in a finished grammar. -/
def GrammarFile.at? (file : GrammarFile) : Path → Option Rule
  | .pattern i :: place => file.patterns[i]?.bind fun r => r.at? place
  | .repository name :: place => (file.repository.lookup name).bind fun r => r.at? place
  | _ => none

variable {grammar : String} {path : Path}

/-- The rules of a list are those of its modes, each at its index. -/
theorem inListFrom_getElem? {modes : List Mode} {first : Nat} {rules : List Rule} {i : Nat} {n : Mode}
    (h : Placed.inListFrom first (modes.map (Mode.compile grammar)) path = .ok rules)
    (listed : modes[i]? = some n) :
    ∃ rule, rules[i]? = some rule ∧
      n.compile grammar (path ++ [.pattern (first + i)]) = .ok rule := by
  induction modes generalizing first rules i with
  | nil => cases listed
  | cons mode modes ih =>
    obtain ⟨head, made, h⟩ := Placed.bind_eq_ok_iff.1 h
    obtain ⟨tail, rest, h⟩ := Placed.bind_eq_ok_iff.1 h
    cases h
    cases i with
    | zero =>
      cases listed
      exact ⟨head, rfl, made⟩
    | succ i =>
      obtain ⟨rule, later, made⟩ := ih rest listed
      rw [Nat.add_assoc, Nat.add_comm 1] at made
      exact ⟨rule, later, made⟩

theorem inList_getElem? {modes : List Mode} {rules : List Rule} {i : Nat} {n : Mode}
    (h : Placed.inList (modes.map (Mode.compile grammar)) path = .ok rules)
    (listed : modes[i]? = some n) :
    ∃ rule, rules[i]? = some rule ∧ n.compile grammar (path ++ [.pattern i]) = .ok rule := by
  have found := inListFrom_getElem? h listed
  rwa [Nat.zero_add] at found

variable {mode m : Mode} {rule : Rule}

/-- The list of a rule is made of the list of its mode. -/
theorem inner_compile (h : mode.compile grammar path = .ok rule) :
    Placed.inList (mode.inner.map (Mode.compile grammar)) path = .ok rule.inner := by
  cases makes_iff.2 h with
  | single _ _ listed => exact listed
  | span _ _ _ _ listed => exact listed
  | group listed => exact listed
  | includes target => rfl

/-- The regex of a rule has the emitted text, and the styles that are emitted with it. -/
theorem regex_of_emitted {field : RegexField} {elidable : Bool} {pattern : Pattern}
    {declared : List (String × Declaration Mode)} {e : Emission Mode} {regex : String × RuleCaptures}
    (ok : emitted elidable pattern declared = .ok e)
    (h : regexWithCaptures grammar field elidable pattern (compileDeclarations grammar declared) path =
      .ok regex) :
    regex.1 = e.1 ∧ captureRules grammar field
      (e.2.map fun s => (s.1, s.2.map (Mode.compile grammar))) path = .ok regex.2 := by
  rw [regexWithCaptures_eq, compileDeclarations_eq_map, emitted_map, ok] at h
  obtain ⟨_, mapped, h⟩ := bind_eq_ok_iff.1 h
  obtain ⟨captures, rules, h⟩ := bind_eq_ok_iff.1 h
  cases mapped
  cases h
  exact ⟨rfl, rules⟩

/-- What is emitted for a mode is in its rule. -/
theorem regexes_compile (h : mode.compile grammar path = .ok rule) {field : RegexField}
    {e : Emission Mode} (emission : (field, .ok e) ∈ mode.emissions) :
    ∃ captures, rule.regexes.lookup field = some (e.1, captures) ∧ captureRules grammar field
      (e.2.map fun s => (s.1, s.2.map (Mode.compile grammar))) path = .ok captures := by
  cases makes_iff.2 h with
  | @single _ _ _ _ regex _ _ whole _ _ =>
    obtain ⟨rfl, ok⟩ := Prod.mk.inj (List.mem_singleton.1 emission)
    obtain ⟨text, rules⟩ := regex_of_emitted ok.symm whole
    exact ⟨regex.2, by rw [← text]; rfl, rules⟩
  | @span _ _ _ _ _ _ _ _ first last _ _ _ closed opened _ _ _ =>
    rcases List.mem_cons.1 emission with back | front
    · obtain ⟨rfl, ok⟩ := Prod.mk.inj back
      obtain ⟨text, rules⟩ := regex_of_emitted ok.symm closed
      exact ⟨last.2, by rw [← text]; rfl, rules⟩
    · obtain ⟨rfl, ok⟩ := Prod.mk.inj (List.mem_singleton.1 front)
      rw [elidableBefore_of_ok closed] at ok
      obtain ⟨text, rules⟩ := regex_of_emitted ok.symm opened
      exact ⟨first.2, by rw [← text]; rfl, rules⟩
  | group _ => cases emission
  | includes target => cases emission

/-- The style of a group in a rule is made of the emitted one. -/
theorem style?_compile (h : mode.compile grammar path = .ok rule) {field : RegexField}
    {e : Emission Mode} (emission : (field, .ok e) ∈ mode.emissions) {group : Nat}
    {style : GroupStyle Mode} (styled : (group, style) ∈ e.2) :
    ∃ entry, rule.style? field group = some entry ∧
      Placed.inList (style.patterns.map (Mode.compile grammar)) (path ++ [.capture field group]) =
        .ok entry.patterns := by
  obtain ⟨captures, regex, rules⟩ := regexes_compile h emission
  have mapped : (group, style.map (Mode.compile grammar)) ∈
      e.2.map fun s => (s.1, s.2.map (Mode.compile grammar)) := List.mem_map.2 ⟨_, styled, rfl⟩
  obtain ⟨⟨group', entry⟩, mem, same, made⟩ :=
    exists_of_mem_left (captureRules_eq_ok_iff.1 rules) mapped
  cases same
  have distinct : captures.Pairwise fun a b => a.1 ≠ b.1 := by
    obtain ⟨part, -, elidable, -, ok⟩ := Mode.part_of_mem_emissions emission
    have order : (captures.map Prod.fst).Pairwise (· ≠ ·) := by
      rw [captureRules_numbers rules, List.map_map]
      exact List.pairwise_map.2 ((emitted_increasing ok.symm).imp Nat.ne_of_lt)
    exact List.pairwise_map.1 order
  refine ⟨entry, ?_, (captureRule_eq_ok_iff.1 made).2⟩
  rw [Rule.style?, regex]
  exact NameMap.lookup_of_mem distinct mem

/-- Every mode that has a place in a mode has its rule at that place of the rule. -/
theorem at?_rule {place : Path} (held : mode.Holds place m)
    (h : mode.compile grammar path = .ok rule) :
    ∃ inside, rule.at? place = some inside ∧ m.compile grammar (path ++ place) = .ok inside := by
  induction held generalizing path rule with
  | self mode => exact ⟨rule, by rw [Rule.at?], by rwa [List.append_nil]⟩
  | inner listed _ ih =>
    obtain ⟨next, place, made⟩ := inList_getElem? (inner_compile h) listed
    obtain ⟨inside, found, made⟩ := ih made
    rw [List.append_assoc] at made
    exact ⟨inside, by rw [Rule.at?, place, Option.bind_some, found], made⟩
  | capture emission styled listed _ ih =>
    obtain ⟨entry, style, patterns⟩ := style?_compile h emission styled
    obtain ⟨next, place, made⟩ := inList_getElem? patterns listed
    obtain ⟨inside, found, made⟩ := ih made
    rw [List.append_assoc, List.append_assoc] at made
    refine ⟨inside, ?_, made⟩
    rw [Rule.at?, style, Option.bind_some, place, Option.bind_some, found]

theorem compileRepository_lookup {entries : List (String × Entry)} {rules : List (String × Rule)}
    {name : String} {entry : Entry} (h : compileRepository grammar entries path = .ok rules)
    (found : entries.lookup name = some entry) :
    ∃ rule, rules.lookup name = some rule ∧
      entry.mode.compile grammar (path ++ [.repository name]) = .ok rule := by
  induction entries generalizing rules with
  | nil => cases found
  | cons e entries ih =>
    obtain ⟨key, first⟩ := e
    obtain ⟨head, made, h⟩ := Placed.bind_eq_ok_iff.1 h
    obtain ⟨tail, rest, h⟩ := Placed.bind_eq_ok_iff.1 h
    cases h
    rw [NameMap.lookup_cons_if] at found ⊢
    by_cases same : name = key
    · rw [if_pos same] at found ⊢
      cases found
      rw [Placed.under_apply, Entry.compile_eq, ← same] at made
      exact ⟨head, rfl, made⟩
    · rw [if_neg same] at found ⊢
      exact ih rest found

/-- In the finished grammar the rule of every mode that has a place stands there. -/
theorem at?_compileRules {g : Grammar} {file : GrammarFile} {place : Path} (held : g.Holds place m)
    (h : g.compileRules grammar [] = .ok file) :
    ∃ rule, file.at? place = some rule ∧ m.compile grammar place = .ok rule := by
  obtain ⟨patterns, listed, h⟩ := Placed.bind_eq_ok_iff.1 h
  obtain ⟨repository, named, h⟩ := Placed.bind_eq_ok_iff.1 h
  cases h
  rw [compileEach_eq_map] at listed
  cases held with
  | pattern place inside =>
    obtain ⟨next, place, made⟩ := inList_getElem? listed place
    obtain ⟨rule, found, made⟩ := at?_rule inside made
    exact ⟨rule, by rw [GrammarFile.at?, place, Option.bind_some, found], made⟩
  | repository entry inside =>
    obtain ⟨next, place, made⟩ := compileRepository_lookup named entry
    obtain ⟨rule, found, made⟩ := at?_rule inside made
    exact ⟨rule, by rw [GrammarFile.at?, place, Option.bind_some, found], made⟩

end TextMate
