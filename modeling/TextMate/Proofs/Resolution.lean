import TextMate.Proofs.Merging

/-!
# Resolving the captures of a regex

Every declared name finds its groups, or the first that does not is reported. Of what is tagged or
declared nothing is lost: the groups with a style are those that a highlight or a declared name is for,
each has the style of the one capture that it was opened for, and no declaration takes the place of
another.
-/

set_option autoImplicit false

namespace TextMate

variable {α : Type}

/-- The styles of a regex in terms of its pattern. -/
structure Resolution (p : Pattern) (f : Fragment) (declared : NameMap (Declaration α))
    (styles : List (Nat × GroupStyle α)) : Prop where
  /-- They are what merging collects, in whatever order the tagged captures come. -/
  merged : ∀ ids : List CaptureId, ids.Nodup → (∀ id, id ∈ ids ↔ p.isTagged id) →
    ∀ n, f.merged ids declared n = styles.lookup n
  /-- One for each group, in the order of the groups. -/
  increasing : styles.Pairwise fun a b => a.1 < b.1
  /-- Two declared names are never for the same group. -/
  apart : ∀ name name', (declared.get? name).isSome → (declared.get? name').isSome →
    name ≠ name' → ∀ n ∈ f.groupsFound name, n ∉ f.groupsFound name'
  /-- The groups with a style. -/
  groups : ∀ n, (∃ style, (n, style) ∈ styles) ↔
    (∃ id, p.isTagged id ∧ n ∈ f.groupsOf id) ∨
      (∃ name, name ≠ wholeMatch ∧ (declared.get? name).isSome ∧ n ∈ f.groupsNamed name) ∨
      (n = 0 ∧ (declared.get? wholeMatch).isSome)
  /-- The whole match has what is declared for it. -/
  whole : ∀ style, (0, style) ∈ styles → ∃ spec, declared.get? wholeMatch = some spec ∧
    style.scopes = spec.scope?.toList ∧ style.patterns = spec.patterns
  /-- A group has the tags of its capture, then the declared scope, each once, and the declared
  rules. -/
  owned : ∀ n style, (n, style) ∈ styles → n ≠ 0 → ∃ id, n ∈ f.groupsOf id ∧
    style.scopes = (p.tagsOf id ++ (Fragment.declaredScope? declared id).toList).eraseDups ∧
    style.patterns = Fragment.declaredPatterns declared id

section

variable {p : Pattern} {f : Fragment} {declared : NameMap (Declaration α)}

theorem forall_declared {motive : String → Prop} :
    (∀ e ∈ declared.entries, motive e.1) ↔ ∀ name, (declared.get? name).isSome → motive name := by
  constructor
  · intro all name isDeclared
    obtain ⟨spec, found⟩ := Option.isSome_iff_exists.1 isDeclared
    exact all _ (NameMap.mem_entries_iff.2 found)
  · rintro all ⟨name, spec⟩ mem
    exact all name (by rw [NameMap.mem_entries_iff.1 mem, Option.isSome_some])

/-- All declared names find their groups, or there are no styles. -/
theorem exists_styles_iff (h : Builds p f) :
    (∃ styles, f.styles declared = .ok styles) ↔
      ∀ name, (declared.get? name).isSome → p.Finds f.text name := by
  refine Iff.trans ?_ forall_declared
  constructor
  · rintro ⟨styles, found⟩ e mem
    exact (checkName_eq_ok_iff h).1 (((styles_eq_ok_iff h).1 found).1 e mem)
  · intro finds
    exact ⟨_, (styles_eq_ok_iff h).2 ⟨fun e mem => (checkName_eq_ok_iff h).2 (finds e mem), rfl⟩⟩

/-- The fault is that of the first declared name that finds nothing. -/
theorem styles_fault_iff (h : Builds p f) {fault : Fault} :
    f.styles declared = .error fault ↔
      ∃ name, (declared.get? name).isSome ∧ p.NameFault f.text name fault ∧
        ∀ name', (declared.get? name').isSome → name' < name → p.Finds f.text name' := by
  rw [styles_eq_error_iff h]
  constructor
  · rintro ⟨before, e, behind, split, earlier, fails⟩
    have mem : e ∈ declared.entries := by simp [split]
    refine ⟨e.1, ?_, (checkName_eq_error_iff h).1 fails, ?_⟩
    · rw [NameMap.mem_entries_iff.1 (show (e.1, e.2) ∈ declared.entries from mem), Option.isSome_some]
    · refine (forall_declared (motive := fun name => name < e.1 → p.Finds f.text name)).1 ?_
      intro e' mem' lt
      have ordered := declared.ordered
      rw [split, List.pairwise_append, List.pairwise_cons] at ordered
      rw [split] at mem'
      rcases List.mem_append.1 mem' with first | rest
      · exact (checkName_eq_ok_iff h).1 (earlier e' first)
      rcases List.mem_cons.1 rest with rfl | later
      · exact absurd lt (String.lt_irrefl _)
      · exact absurd lt (String.lt_asymm (ordered.2.1.1 e' later))
  · rintro ⟨name, isDeclared, fails, earlier⟩
    obtain ⟨spec, found⟩ := Option.isSome_iff_exists.1 isDeclared
    obtain ⟨before, behind, split⟩ := List.append_of_mem (NameMap.mem_entries_iff.2 found)
    refine ⟨before, (name, spec), behind, split, ?_, (checkName_eq_error_iff h).2 fails⟩
    intro e mem
    have ordered := declared.ordered
    rw [split, List.pairwise_append] at ordered
    have isDeclared' : (declared.get? e.1).isSome := by
      have entry : (e.1, e.2) ∈ declared.entries := by simp [split, mem]
      rw [NameMap.mem_entries_iff.1 entry, Option.isSome_some]
    have lt : e.1 < name := ordered.2.2 e mem _ List.mem_cons_self
    exact (checkName_eq_ok_iff h).2 (earlier e.1 isDeclared' lt)

/-- No group is found by two names. -/
theorem name_eq_of_groupsFound (h : Builds p f) {name name' : String} (finds : p.Finds f.text name)
    (finds' : p.Finds f.text name') {n : Nat} (mem : n ∈ f.groupsFound name)
    (mem' : n ∈ f.groupsFound name') : name = name' := by
  rcases (mem_groupsFound_iff h finds).1 mem with ⟨rfl, rfl⟩ | ⟨-, id, own, named⟩
  · exact (zero_mem_groupsFound_iff.1 mem').symm
  · have named' := ((mem_groupsFound_of_own h finds' own).1 mem').2
    exact Option.some.inj (named.symm.trans named')

section Found

variable {styles : List (Nat × GroupStyle α)} {n : Nat} {style : GroupStyle α}

/-- A group with a style belongs to a tag, to a declared name or to the whole match. -/
theorem found_of_mem_styles (h : Builds p f) (found : f.styles declared = .ok styles)
    (mem : (n, style) ∈ styles) :
    (∃ id, p.isTagged id ∧ n ∈ f.groupsOf id) ∨
      (∃ name, name ≠ wholeMatch ∧ (declared.get? name).isSome ∧ n ∈ f.groupsNamed name) ∨
      (n = 0 ∧ (declared.get? wholeMatch).isSome) := by
  have finds := (exists_styles_iff h).1 ⟨styles, found⟩
  rcases (Fragment.mem_styles found).1 mem with ⟨zero, whole⟩ | ⟨pos, id, label, style⟩
  · obtain ⟨spec, declaredAs, -⟩ := Option.map_eq_some_iff.1 whole
    exact .inr (.inr ⟨zero, Option.isSome_of_eq_some declaredAs⟩)
  · have own : n ∈ f.groupsOf id := Fragment.mem_groupsOf.2 ⟨pos, label⟩
    rcases ((styleOf?_of_builds h).1 style).1 with tagged | isDeclared
    · exact .inl ⟨id, tagged, own⟩
    · obtain ⟨spec, declaration⟩ := Option.isSome_iff_exists.1 isDeclared
      obtain ⟨name, named, other, entry⟩ := Fragment.mem_entries_of_declarationFor? declaration
      have isDeclared := Option.isSome_of_eq_some (NameMap.mem_entries_iff.1 entry)
      refine .inr (.inl ⟨name, other, isDeclared, ?_⟩)
      exact (mem_groupsNamed_iff h other (finds name isDeclared)).2 ⟨id, own, named⟩

/-- Every group of a tagged capture has a style. -/
theorem exists_style_of_isTagged (h : Builds p f) (found : f.styles declared = .ok styles)
    {id : CaptureId} (tagged : p.isTagged id) (own : n ∈ f.groupsOf id) :
    ∃ style, (n, style) ∈ styles := by
  obtain ⟨pos, label⟩ := Fragment.mem_groupsOf.1 own
  have style : f.styleOf? declared id = some _ := (styleOf?_of_builds h).2 ⟨.inl tagged, rfl⟩
  exact ⟨_, (Fragment.mem_styles found).2 (.inr ⟨pos, id, label, style⟩)⟩

/-- Every group of a declared name has a style. -/
theorem exists_style_of_declared (h : Builds p f) (found : f.styles declared = .ok styles)
    {name : String} (other : name ≠ wholeMatch) (isDeclared : (declared.get? name).isSome)
    (mem : n ∈ f.groupsNamed name) : ∃ style, (n, style) ∈ styles := by
  have finds := (exists_styles_iff h).1 ⟨styles, found⟩ name isDeclared
  obtain ⟨id, own, named⟩ := (mem_groupsNamed_iff h other finds).1 mem
  obtain ⟨pos, label⟩ := Fragment.mem_groupsOf.1 own
  obtain ⟨spec, declaredAs⟩ := Option.isSome_iff_exists.1 isDeclared
  have declaration : (Fragment.declarationFor? declared id).isSome :=
    Option.isSome_of_eq_some
      (Fragment.declarationFor?_of_mem_entries named other (NameMap.mem_entries_iff.2 declaredAs))
  have style := (styleOf?_of_builds h).2 ⟨.inr declaration, rfl⟩
  exact ⟨_, (Fragment.mem_styles found).2 (.inr ⟨pos, id, label, style⟩)⟩

/-- The whole match has a style if one is declared for it. -/
theorem exists_style_of_whole (found : f.styles declared = .ok styles)
    (isDeclared : (declared.get? wholeMatch).isSome) : ∃ style, (0, style) ∈ styles := by
  obtain ⟨spec, declaredAs⟩ := Option.isSome_iff_exists.1 isDeclared
  have whole : Fragment.wholeStyle? declared = some ⟨spec.scope?.toList, spec.patterns⟩ := by
    rw [Fragment.wholeStyle?, declaredAs, Option.map_some]
  exact ⟨_, (Fragment.mem_styles found).2 (.inl ⟨rfl, whole⟩)⟩

end Found

theorem resolution_of_builds (h : Builds p f) {styles : List (Nat × GroupStyle α)}
    (found : f.styles declared = .ok styles) : Resolution p f declared styles where
  merged ids distinct all := merged_eq_lookup h found distinct all
  increasing := Fragment.styles_increasing found
  apart name name' isDeclared isDeclared' ne n mem mem' := by
    have finds := (exists_styles_iff h).1 ⟨styles, found⟩
    exact ne (name_eq_of_groupsFound h (finds name isDeclared) (finds name' isDeclared') mem mem')
  groups n := by
    constructor
    · rintro ⟨style, mem⟩
      exact found_of_mem_styles h found mem
    · rintro (⟨id, tagged, own⟩ | ⟨name, other, isDeclared, mem⟩ | ⟨rfl, isDeclared⟩)
      · exact exists_style_of_isTagged h found tagged own
      · exact exists_style_of_declared h found other isDeclared mem
      · exact exists_style_of_whole found isDeclared
  whole style mem := by
    rcases (Fragment.mem_styles found).1 mem with ⟨-, whole⟩ | ⟨pos, -⟩
    · obtain ⟨spec, declaredAs, rfl⟩ := Option.map_eq_some_iff.1 whole
      exact ⟨spec, declaredAs, rfl, rfl⟩
    · cases pos
  owned n style mem nonzero := by
    rcases (Fragment.mem_styles found).1 mem with ⟨zero, -⟩ | ⟨pos, id, label, own⟩
    · exact absurd zero nonzero
    · obtain ⟨-, rfl⟩ := (styleOf?_of_builds h).1 own
      exact ⟨id, Fragment.mem_groupsOf.2 ⟨pos, label⟩, rfl, rfl⟩

end

/-- Resolving the captures of a compiled pattern. It succeeds exactly if every declared name finds
something: the whole of a text that is not empty, or the one capture that is called so. The first
name that does not is reported. -/
theorem styles_compile {p : Pattern} {f : Fragment} (h : p.compile = .ok f)
    (declared : NameMap (Declaration α)) :
    ((∃ styles, f.styles declared = .ok styles) ↔
        ∀ name, (declared.get? name).isSome → p.Finds f.text name) ∧
      (∀ fault, f.styles declared = .error fault ↔
        ∃ name, (declared.get? name).isSome ∧ p.NameFault f.text name fault ∧
          ∀ name', (declared.get? name').isSome → name' < name → p.Finds f.text name') ∧
      ∀ styles, f.styles declared = .ok styles → Resolution p f declared styles := by
  have built := builds_of_compile h
  refine ⟨exists_styles_iff built, fun fault => styles_fault_iff built, ?_⟩
  intro styles found
  exact resolution_of_builds built found

/-- A tagged capture in two places, with a tagged choice between them. -/
def taggedRow : Pattern :=
  .sequence (.tag (.capture (.leaf "a") "x" 0) [⟨"variable"⟩] 1)
    (.sequence (.tag (.leaf "b|c") [⟨"keyword"⟩] 2) (.capture (.leaf "a") "x" 0))

/-- The fragment of `taggedRow`. -/
def taggedRowFragment : Fragment where
  text := "(a)(b|c)(a)"
  precedence := .sequence
  groups := [some ⟨0, some "x"⟩, some ⟨2, none⟩, some ⟨0, some "x"⟩]
  bound := [⟨0, some "x"⟩, ⟨0, some "x"⟩]
  highlights := [(⟨0, some "x"⟩, [⟨"variable"⟩]), (⟨2, none⟩, [⟨"keyword"⟩])]

/-- A scope for the whole of `taggedRow`; a rule, and once more the tag, for its capture. -/
def rowDeclarations : NameMap (Declaration String) :=
  .ofList [("x", .rule (some ⟨"variable"⟩) ["#expr"]), ("$all", .scope ⟨"meta"⟩)]

theorem styles_compile_taggedRow :
    taggedRow.compile = .ok taggedRowFragment ∧
      (∀ name, (rowDeclarations.get? name).isSome → taggedRow.Finds "(a)(b|c)(a)" name) ∧
      Resolution taggedRow taggedRowFragment rowDeclarations
        [(0, ⟨[⟨"meta"⟩], []⟩), (1, ⟨[⟨"variable"⟩], ["#expr"]⟩), (2, ⟨[⟨"keyword"⟩], []⟩),
          (3, ⟨[⟨"variable"⟩], ["#expr"]⟩)] := by
  have compiled : taggedRow.compile = .ok taggedRowFragment := by rfl
  obtain ⟨succeeds, -, resolved⟩ := styles_compile compiled rowDeclarations
  have found : taggedRowFragment.styles rowDeclarations =
      .ok [(0, ⟨[⟨"meta"⟩], []⟩), (1, ⟨[⟨"variable"⟩], ["#expr"]⟩), (2, ⟨[⟨"keyword"⟩], []⟩),
        (3, ⟨[⟨"variable"⟩], ["#expr"]⟩)] := by rfl
  exact ⟨compiled, succeeds.1 ⟨_, found⟩, resolved _ found⟩

end TextMate
