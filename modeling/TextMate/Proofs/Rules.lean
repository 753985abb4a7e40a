import Mathlib.Data.List.Forall2
import TextMate.Mode.Rule
import TextMate.Proofs.Builds

/-!
# How a rule is made

What the parts of a rule are, once a mode has compiled: one lemma for each computation that makes a
part, and one for the whole rule (`makes_iff`). The rules inside a declaration are those of its modes
(`declarationFor?_compile`).
-/

set_option autoImplicit false

namespace TextMate

variable {α β : Type}

section Pairs

variable {R : α → β → Prop} {as : List α} {bs : List β}

theorem exists_of_mem_left (h : List.Forall₂ R as bs) {a : α} (ha : a ∈ as) : ∃ b ∈ bs, R a b := by
  induction h with
  | nil => cases ha
  | @cons _ b _ bs head _ ih =>
    rcases List.mem_cons.1 ha with rfl | ha
    · exact ⟨b, List.mem_cons_self, head⟩
    · obtain ⟨b', mem, related⟩ := ih ha
      exact ⟨b', List.mem_cons_of_mem b mem, related⟩

theorem exists_of_mem_right (h : List.Forall₂ R as bs) {b : β} (hb : b ∈ bs) : ∃ a ∈ as, R a b :=
  exists_of_mem_left (R := flip R) h.flip hb

end Pairs

namespace Placed

variable {path : Path}

theorem bind_eq_ok_iff {x : Placed α} {k : α → Placed β} {b : β} :
    (x >>= k) path = .ok b ↔ ∃ a, x path = .ok a ∧ k a path = .ok b :=
  TextMate.bind_eq_ok_iff

theorem mapM_eq_ok_iff {f : α → Placed β} {as : List α} {bs : List β} :
    as.mapM f path = .ok bs ↔ List.Forall₂ (fun a b => f a path = .ok b) as bs := by
  induction as generalizing bs with
  | nil =>
    rw [List.mapM_nil, List.forall₂_nil_left_iff]
    change Except.ok [] = Except.ok bs ↔ _
    rw [Except.ok.injEq, eq_comm]
  | cons a as ih =>
    rw [List.mapM_cons, bind_eq_ok_iff, List.forall₂_cons_left_iff]
    constructor
    · rintro ⟨b, head, h⟩
      obtain ⟨rest, tail, h⟩ := bind_eq_ok_iff.1 h
      cases h
      exact ⟨b, rest, head, ih.1 tail, rfl⟩
    · rintro ⟨b, rest, head, tail, rfl⟩
      exact ⟨b, head, bind_eq_ok_iff.2 ⟨rest, ih.2 tail, rfl⟩⟩

end Placed

section Parts

variable {grammar : String} {path : Path} {field : RegexField}

theorem qualified_eq_ok_iff {at' : Field} {scope : Scope} {name : String} :
    qualified grammar at' scope path = .ok name ↔ scope.qualify grammar = .ok name :=
  Placed.inField_eq_ok_iff

/-- The name of a group is its qualified scopes, and its rules stand under its number. -/
theorem captureRule_eq_ok_iff {group : Nat} {style : GroupStyle (Placed Rule)}
    {rule : CaptureRule Rule} :
    captureRule grammar field group style path = .ok rule ↔
      (∃ names, List.Forall₂ (fun scope name => scope.qualify grammar = .ok name) style.scopes names ∧
        rule.name = joinNames names) ∧
      Placed.inList style.patterns (path ++ [.capture field group]) = .ok rule.patterns := by
  have named {names : List String} :
      style.scopes.mapM (qualified grammar (.regex field)) path = .ok names ↔
        List.Forall₂ (fun scope name => scope.qualify grammar = .ok name) style.scopes names := by
    rw [Placed.mapM_eq_ok_iff]
    simp only [qualified_eq_ok_iff]
  unfold captureRule
  rw [Placed.bind_eq_ok_iff]
  constructor
  · rintro ⟨names, scopes, h⟩
    obtain ⟨patterns, rules, h⟩ := Placed.bind_eq_ok_iff.1 h
    cases h
    exact ⟨⟨names, named.1 scopes, rfl⟩, rules⟩
  · obtain ⟨name, patterns⟩ := rule
    rintro ⟨⟨names, scopes, rfl⟩, rules⟩
    exact ⟨names, named.2 scopes, Placed.bind_eq_ok_iff.2 ⟨patterns, rules, rfl⟩⟩

theorem captureRules_eq_ok_iff {styles : List (Nat × GroupStyle (Placed Rule))}
    {captures : RuleCaptures} :
    captureRules grammar field styles path = .ok captures ↔
      List.Forall₂ (fun s c => s.1 = c.1 ∧ captureRule grammar field s.1 s.2 path = .ok c.2)
        styles captures := by
  induction styles generalizing captures with
  | nil =>
    rw [captureRules, List.forall₂_nil_left_iff]
    change Except.ok [] = Except.ok captures ↔ _
    rw [Except.ok.injEq, eq_comm]
  | cons s styles ih =>
    rw [captureRules, Placed.bind_eq_ok_iff, List.forall₂_cons_left_iff]
    constructor
    · rintro ⟨rule, head, h⟩
      obtain ⟨rest, tail, h⟩ := Placed.bind_eq_ok_iff.1 h
      cases h
      exact ⟨_, rest, ⟨rfl, head⟩, ih.1 tail, rfl⟩
    · rintro ⟨⟨group, rule⟩, rest, ⟨rfl, head⟩, tail, rfl⟩
      exact ⟨rule, head, Placed.bind_eq_ok_iff.2 ⟨rest, ih.2 tail, rfl⟩⟩

/-- The captures of a rule have the numbers of the styles. -/
theorem captureRules_numbers {styles : List (Nat × GroupStyle (Placed Rule))}
    {captures : RuleCaptures} (h : captureRules grammar field styles path = .ok captures) :
    captures.map Prod.fst = styles.map Prod.fst := by
  have pairs := captureRules_eq_ok_iff.1 h
  induction pairs with
  | nil => rfl
  | cons head tail ih => rw [List.map_cons, List.map_cons, head.1, ih (captureRules_eq_ok_iff.2 tail)]

theorem regexWithCaptures_eq_ok_iff {elidable : Bool} {pattern : Pattern}
    {declared : List (String × Declaration (Placed Rule))} {regex : String × RuleCaptures} :
    regexWithCaptures grammar field elidable pattern declared path = .ok regex ↔
      ∃ f styles, pattern.compile = .ok f ∧ f.styles (.ofList declared) = .ok styles ∧
        regex.1 = (GroupStyle.elide elidable f.text styles).1 ∧
        captureRules grammar field (GroupStyle.elide elidable f.text styles).2 path = .ok regex.2 := by
  unfold regexWithCaptures
  rw [Placed.bind_eq_ok_iff]
  constructor
  · rintro ⟨f, compiled, h⟩
    obtain ⟨styles, found, h⟩ := Placed.bind_eq_ok_iff.1 h
    obtain ⟨captures, rules, h⟩ := Placed.bind_eq_ok_iff.1 h
    cases h
    exact ⟨f, styles, Placed.inField_eq_ok_iff.1 compiled, Placed.inField_eq_ok_iff.1 found, rfl,
      rules⟩
  · obtain ⟨text, captures⟩ := regex
    rintro ⟨f, styles, compiled, found, rfl, rules⟩
    refine ⟨f, Placed.inField_eq_ok_iff.2 compiled, ?_⟩
    refine Placed.bind_eq_ok_iff.2 ⟨styles, Placed.inField_eq_ok_iff.2 found, ?_⟩
    exact Placed.bind_eq_ok_iff.2 ⟨captures, rules, rfl⟩

end Parts

/-- A declaration with something done to each of its rules. -/
def Declaration.map (g : α → β) : Declaration α → Declaration β
  | .scope s => .scope s
  | .rule s ps => .rule s (ps.map g)

theorem compileDeclarations_eq_map (grammar : String) (declared : List (String × Declaration Mode)) :
    compileDeclarations grammar declared =
      declared.map fun e => (e.1, e.2.map (Mode.compile grammar)) := by
  induction declared with
  | nil => rfl
  | cons e rest ih =>
    obtain ⟨name, spec⟩ := e
    cases spec with
    | scope s => rw [compileDeclarations, ih, List.map_cons, Declaration.map]
    | rule s modes =>
      rw [compileDeclarations, ih, List.map_cons, Declaration.map, compileEach_eq_map]

/-- What is done to each entry of a list is done to what is looked up. -/
theorem NameMap.get?_ofList_map (g : α → β) (es : List (String × α)) (name : String) :
    (NameMap.ofList (es.map fun e => (e.1, g e.2))).get? name =
      ((NameMap.ofList es).get? name).map g := by
  have fold (es : List (String × α)) (m : NameMap α) (m' : NameMap β)
      (h : m'.get? name = (m.get? name).map g) :
      ((es.map fun e => (e.1, g e.2)).foldl (fun m e => m.insert e.1 e.2) m').get? name =
        ((es.foldl (fun m e => m.insert e.1 e.2) m).get? name).map g := by
    induction es generalizing m m' with
    | nil => exact h
    | cons e es ih =>
      apply ih
      rw [get?_insert, get?_insert, h]
      split <;> rfl
  exact fold es empty empty rfl

section Mapped

variable (g : α → β) (declared : List (String × Declaration α)) (id : CaptureId)

theorem declarationFor?_map :
    Fragment.declarationFor? (.ofList (declared.map fun e => (e.1, e.2.map g))) id =
      (Fragment.declarationFor? (.ofList declared) id).map (Declaration.map g) := by
  unfold Fragment.declarationFor?
  split
  · rfl
  · split
    · rfl
    · exact NameMap.get?_ofList_map ..

theorem declaredScope?_map :
    Fragment.declaredScope? (.ofList (declared.map fun e => (e.1, e.2.map g))) id =
      Fragment.declaredScope? (.ofList declared) id := by
  unfold Fragment.declaredScope?
  rw [declarationFor?_map]
  cases Fragment.declarationFor? (.ofList declared) id with
  | none => rfl
  | some spec => cases spec <;> rfl

theorem declaredPatterns_map :
    Fragment.declaredPatterns (.ofList (declared.map fun e => (e.1, e.2.map g))) id =
      (Fragment.declaredPatterns (.ofList declared) id).map g := by
  unfold Fragment.declaredPatterns
  rw [declarationFor?_map]
  cases Fragment.declarationFor? (.ofList declared) id with
  | none => rfl
  | some spec => cases spec <;> rfl

end Mapped

section Declared

variable (grammar : String) (declared : List (String × Declaration Mode)) (id : CaptureId)

theorem declarationFor?_compile :
    Fragment.declarationFor? (.ofList (compileDeclarations grammar declared)) id =
      (Fragment.declarationFor? (.ofList declared) id).map (Declaration.map (Mode.compile grammar)) := by
  rw [compileDeclarations_eq_map, declarationFor?_map]

theorem declaredScope?_compile :
    Fragment.declaredScope? (.ofList (compileDeclarations grammar declared)) id =
      Fragment.declaredScope? (.ofList declared) id := by
  rw [compileDeclarations_eq_map, declaredScope?_map]

theorem declaredPatterns_compile :
    Fragment.declaredPatterns (.ofList (compileDeclarations grammar declared)) id =
      (Fragment.declaredPatterns (.ofList declared) id).map (Mode.compile grammar) := by
  rw [compileDeclarations_eq_map, declaredPatterns_map]

end Declared

/-- What the rule of a mode at a path is made of. -/
inductive Mode.Makes (grammar : String) (path : Path) : Mode → Rule → Prop where
  | single {pattern : Pattern} {scope : Option Scope} {captures : List (String × Declaration Mode)}
      {contains : List Mode} {whole : String × RuleCaptures} {name : Option String}
      {patterns : List Rule} :
      regexWithCaptures grammar .whole true pattern (compileDeclarations grammar captures) path =
        .ok whole →
      qualified? grammar .name scope path = .ok name →
      Placed.inList (contains.map (Mode.compile grammar)) path = .ok patterns →
      Makes grammar path (.single pattern scope captures contains)
        (.single name whole.1 whole.2 patterns)
  | span {opening closing : Pattern} {scope contentScope : Option Scope}
      {openingCaptures closingCaptures : List (String × Declaration Mode)} {contains : List Mode}
      {closingLast : Bool} {first last : String × RuleCaptures} {name contentName : Option String}
      {patterns : List Rule} :
      regexWithCaptures grammar .closing true closing (compileDeclarations grammar closingCaptures)
        path = .ok last →
      regexWithCaptures grammar .opening (!Regex.hasBackreference last.1) opening
        (compileDeclarations grammar openingCaptures) path = .ok first →
      qualified? grammar .name scope path = .ok name →
      qualified? grammar .contentName contentScope path = .ok contentName →
      Placed.inList (contains.map (Mode.compile grammar)) path = .ok patterns →
      Makes grammar path
        (.span opening closing scope contentScope openingCaptures closingCaptures contains closingLast)
        (.span name contentName first.1 last.1 first.2 last.2 patterns
          (if closingLast then some 1 else none))
  | group {modes : List Mode} {patterns : List Rule} :
      Placed.inList (modes.map (Mode.compile grammar)) path = .ok patterns →
      Makes grammar path (.group modes) (.list patterns)
  | includes (target : Reference) : Makes grammar path (.includes target) (.includes target.text)

/-- A mode compiles to a rule exactly if all parts of the rule are made. -/
theorem makes_iff {grammar : String} {path : Path} {mode : Mode} {rule : Rule} :
    mode.Makes grammar path rule ↔ mode.compile grammar path = .ok rule := by
  constructor
  · intro h
    cases h with
    | single whole named listed =>
      rw [Mode.compile, compileEach_eq_map]
      refine Placed.bind_eq_ok_iff.2 ⟨_, whole, ?_⟩
      refine Placed.bind_eq_ok_iff.2 ⟨_, named, ?_⟩
      exact Placed.bind_eq_ok_iff.2 ⟨_, listed, rfl⟩
    | span closed opened named content listed =>
      rw [Mode.compile, compileEach_eq_map]
      refine Placed.bind_eq_ok_iff.2 ⟨_, closed, ?_⟩
      refine Placed.bind_eq_ok_iff.2 ⟨_, opened, ?_⟩
      refine Placed.bind_eq_ok_iff.2 ⟨_, named, ?_⟩
      refine Placed.bind_eq_ok_iff.2 ⟨_, content, ?_⟩
      exact Placed.bind_eq_ok_iff.2 ⟨_, listed, rfl⟩
    | group listed =>
      rw [Mode.compile, compileEach_eq_map]
      exact Placed.bind_eq_ok_iff.2 ⟨_, listed, rfl⟩
    | includes target => rfl
  · intro h
    cases mode with
    | single pattern scope captures contains =>
      rw [Mode.compile, compileEach_eq_map] at h
      obtain ⟨regex, whole, h⟩ := Placed.bind_eq_ok_iff.1 h
      obtain ⟨name, named, h⟩ := Placed.bind_eq_ok_iff.1 h
      obtain ⟨patterns, listed, h⟩ := Placed.bind_eq_ok_iff.1 h
      cases h
      exact .single whole named listed
    | span opening closing scope contentScope openingCaptures closingCaptures contains closingLast =>
      rw [Mode.compile, compileEach_eq_map] at h
      obtain ⟨last, closed, h⟩ := Placed.bind_eq_ok_iff.1 h
      obtain ⟨first, opened, h⟩ := Placed.bind_eq_ok_iff.1 h
      obtain ⟨name, named, h⟩ := Placed.bind_eq_ok_iff.1 h
      obtain ⟨contentName, content, h⟩ := Placed.bind_eq_ok_iff.1 h
      obtain ⟨patterns, listed, h⟩ := Placed.bind_eq_ok_iff.1 h
      cases h
      exact .span closed opened named content listed
    | group modes =>
      rw [Mode.compile, compileEach_eq_map] at h
      obtain ⟨patterns, listed, h⟩ := Placed.bind_eq_ok_iff.1 h
      cases h
      exact .group listed
    | includes target =>
      cases h
      exact .includes target

end TextMate
