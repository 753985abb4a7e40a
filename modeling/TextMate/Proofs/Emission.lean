import TextMate.Proofs.Elision
import TextMate.Proofs.Resolution
import TextMate.Proofs.Rules

/-!
# What a regex emits

The text of a regex and the styles of its groups are settled before any rule in these styles is
made: what is done to the declared rules can as well be done to the rules in the styles
(`emitted_map`). All that is put on a capture or declared for it is in a style, and nothing else,
whether or not the outer group is left out.
-/

set_option autoImplicit false

namespace TextMate

variable {α β : Type}

/-- A style with something done to each of its rules. -/
def GroupStyle.map (g : α → β) (style : GroupStyle α) : GroupStyle β :=
  ⟨style.scopes, style.patterns.map g⟩

/-- The text of a regex with the styles of its groups. -/
abbrev Emission (α : Type) := String × List (Nat × GroupStyle α)

def Emission.map (g : α → β) (e : Emission α) : Emission β :=
  (e.1, e.2.map fun s => (s.1, s.2.map g))

/-- What is emitted for a pattern: it is compiled, its captures are resolved, and the outer group
is left out where that is allowed. -/
def emitted (elidable : Bool) (pattern : Pattern) (declared : List (String × Declaration α)) :
    Except Fault (Emission α) := do
  let fragment ← pattern.compile
  let styles ← fragment.styles (.ofList declared)
  return GroupStyle.elide elidable fragment.text styles

theorem emitted_eq_ok_iff {elidable : Bool} {pattern : Pattern}
    {declared : List (String × Declaration α)} {e : Emission α} :
    emitted elidable pattern declared = .ok e ↔ ∃ f styles, pattern.compile = .ok f ∧
      f.styles (.ofList declared) = .ok styles ∧ e = GroupStyle.elide elidable f.text styles := by
  unfold emitted
  rw [bind_eq_ok_iff]
  constructor
  · rintro ⟨f, compiled, h⟩
    obtain ⟨styles, found, h⟩ := bind_eq_ok_iff.1 h
    cases h
    exact ⟨f, styles, compiled, found, rfl⟩
  · rintro ⟨f, styles, compiled, found, rfl⟩
    exact ⟨f, compiled, bind_eq_ok_iff.2 ⟨styles, found, rfl⟩⟩

theorem emitted_eq_error_iff {elidable : Bool} {pattern : Pattern}
    {declared : List (String × Declaration α)} {fault : Fault} :
    emitted elidable pattern declared = .error fault ↔ pattern.compile = .error fault ∨
      ∃ f, pattern.compile = .ok f ∧ f.styles (.ofList declared) = .error fault := by
  unfold emitted
  rw [bind_eq_error_iff]
  refine or_congr_right (exists_congr fun f => and_congr_right fun _ => ?_)
  rw [bind_eq_error_iff]
  constructor
  · rintro (fails | ⟨_, -, done⟩)
    · exact fails
    · cases done
  · exact .inl

/-- The regex of a rule is what is emitted, with the rules of each group in place. -/
theorem regexWithCaptures_eq (grammar : String) (field : RegexField) (elidable : Bool)
    (pattern : Pattern) (declared : List (String × Declaration (Placed Rule))) (path : Path) :
    regexWithCaptures grammar field elidable pattern declared path =
      (Placed.inField (.regex field) (emitted elidable pattern declared) path >>= fun e =>
        captureRules grammar field e.2 path >>= fun captures => .ok (e.1, captures)) := by
  unfold regexWithCaptures emitted
  change (Placed.inField (.regex field) pattern.compile path >>= fun f =>
    Placed.inField (.regex field) (f.styles (.ofList declared)) path >>= fun _ => _) = _
  cases pattern.compile with
  | error fault => rfl
  | ok f =>
    change (Placed.inField (.regex field) (f.styles (.ofList declared)) path >>= fun _ => _) =
      (Placed.inField (.regex field) (f.styles (.ofList declared) >>= fun _ => _) path >>= fun _ => _)
    cases f.styles (.ofList declared) with
    | error fault => rfl
    | ok styles => rfl

section Mapped

variable (g : α → β) (declared : List (String × Declaration α))

theorem NameMap.entries_ofList_map (g : α → β) (es : List (String × α)) :
    (NameMap.ofList (es.map fun e => (e.1, g e.2))).entries =
      (NameMap.ofList es).entries.map fun e => (e.1, g e.2) := by
  refine NameMap.entries_eq_of_lookup (NameMap.ordered _) ?_ fun name => ?_
  · exact List.pairwise_map.2 (NameMap.ordered _)
  · rw [NameMap.lookup_map]
    exact NameMap.get?_ofList_map g es name

theorem Fragment.wholeStyle?_map :
    wholeStyle? (.ofList (declared.map fun e => (e.1, e.2.map g))) =
      (wholeStyle? (.ofList declared)).map (GroupStyle.map g) := by
  unfold wholeStyle?
  rw [NameMap.get?_ofList_map, Option.map_map, Option.map_map]
  refine Option.map_congr fun spec _ => ?_
  cases spec <;> rfl

theorem Fragment.styleOf?_map (f : Fragment) (id : CaptureId) :
    f.styleOf? (.ofList (declared.map fun e => (e.1, e.2.map g))) id =
      (f.styleOf? (.ofList declared) id).map (GroupStyle.map g) := by
  unfold styleOf?
  rw [declarationFor?_map, declaredScope?_map, declaredPatterns_map, Option.isSome_map]
  split <;> rfl

theorem Fragment.stylesFrom_map (f : Fragment) (i : Nat) (groups : List (Option CaptureId)) :
    f.stylesFrom (.ofList (declared.map fun e => (e.1, e.2.map g))) i groups =
      (f.stylesFrom (.ofList declared) i groups).map fun s => (s.1, s.2.map g) := by
  induction groups generalizing i with
  | nil => rfl
  | cons label rest ih =>
    rw [stylesFrom_cons, stylesFrom_cons, List.map_append, ih]
    congr 1
    cases label with
    | none => rfl
    | some id =>
      rw [Option.bind_some, Option.bind_some, styleOf?_map]
      cases f.styleOf? (.ofList declared) id <;> rfl

/-- What is done to the declared rules is done to those of the styles. -/
theorem Fragment.styles_map (f : Fragment) :
    f.styles (.ofList (declared.map fun e => (e.1, e.2.map g))) =
      (f.styles (.ofList declared)).map (List.map fun s => (s.1, s.2.map g)) := by
  have whole := wholeStyle?_map g declared
  have own := stylesFrom_map g declared f 1 f.groups
  unfold stylesFrom at own
  unfold styles
  simp only [whole, own, NameMap.entries_ofList_map, List.forM_eq_forM, List.forM_map]
  cases f.checkHighlighted with
  | error fault => rfl
  | ok _ =>
    change (forM _ _ >>= fun _ => _) = Except.map _ (forM _ _ >>= fun _ => _)
    cases forM (NameMap.ofList declared).entries fun e => f.checkName e.1 with
    | error fault => rfl
    | ok _ =>
      refine congrArg Except.ok ?_
      rw [List.map_append]
      cases wholeStyle? (NameMap.ofList declared) <;> rfl

theorem GroupStyle.elide_map (allowed : Bool) (text : String) (styles : List (Nat × GroupStyle α)) :
    elide allowed text (styles.map fun s => (s.1, s.2.map g)) =
      Emission.map g (elide allowed text styles) := by
  have same : isElidable text (styles.map fun s => (s.1, s.2.map g)) = isElidable text styles := by
    unfold isElidable
    rw [NameMap.lookup_map, NameMap.lookup_map, Option.isNone_map, Option.any_map]
    rfl
  unfold elide
  rw [same]
  split
  · simp [Emission.map]
  · rfl

/-- What is done to the declared rules is done to those that are emitted. -/
theorem emitted_map (elidable : Bool) (pattern : Pattern) :
    emitted elidable pattern (declared.map fun e => (e.1, e.2.map g)) =
      (emitted elidable pattern declared).map (Emission.map g) := by
  unfold emitted
  cases pattern.compile with
  | error fault => rfl
  | ok f =>
    change (f.styles _ >>= fun _ => _) = Except.map _ (f.styles _ >>= fun _ => _)
    rw [Fragment.styles_map]
    cases f.styles (.ofList declared) with
    | error fault => rfl
    | ok styles => exact congrArg Except.ok (GroupStyle.elide_map g elidable f.text styles)

end Mapped

/-- Leaving out the outer group changes the numbers of styles only. -/
theorem GroupStyle.exists_mem_elide_iff {allowed : Bool} {text : String}
    {styles : List (Nat × GroupStyle α)} {style : GroupStyle α} :
    (∃ k, (k, style) ∈ (elide allowed text styles).2) ↔ ∃ k, (k, style) ∈ styles := by
  unfold elide
  split
  · simp only [List.mem_map, Prod.exists, Prod.mk.injEq]
    constructor
    · rintro ⟨_, k, _, mem, -, rfl⟩
      exact ⟨k, mem⟩
    · rintro ⟨k, mem⟩
      exact ⟨k - 1, k, style, mem, rfl, rfl⟩
  · exact Iff.rfl

section Emitted

variable {elidable : Bool} {pattern : Pattern} {declared : List (String × Declaration α)}
  {e : Emission α} {k : Nat} {style : GroupStyle α}

/-- A style is that of the whole match, or that of a capture which is tagged or declared. -/
theorem style_of_mem_emitted (h : emitted elidable pattern declared = .ok e)
    (mem : (k, style) ∈ e.2) :
    Fragment.wholeStyle? (.ofList declared) = some style ∨ ∃ id,
      style = ⟨(pattern.tagsOf id ++
        (Fragment.declaredScope? (.ofList declared) id).toList).eraseDups,
        Fragment.declaredPatterns (.ofList declared) id⟩ := by
  obtain ⟨f, styles, compiled, found, rfl⟩ := emitted_eq_ok_iff.1 h
  obtain ⟨k', mem⟩ := GroupStyle.exists_mem_elide_iff.1 ⟨k, mem⟩
  rcases (Fragment.mem_styles found).1 mem with ⟨-, whole⟩ | ⟨-, id, -, own⟩
  · exact .inl whole
  · exact .inr ⟨id, ((styleOf?_of_builds (builds_of_compile compiled)).1 own).2⟩

/-- The styles stand in the order of their groups. -/
theorem emitted_increasing (h : emitted elidable pattern declared = .ok e) :
    e.2.Pairwise fun a b => a.1 < b.1 := by
  obtain ⟨f, styles, compiled, found, rfl⟩ := emitted_eq_ok_iff.1 h
  have increasing := Fragment.styles_increasing found
  rcases GroupStyle.elide_cases elidable f.text styles with same | ⟨_, _, -, -, -, whole, inner⟩
  · rwa [same]
  · rw [inner]
    exact GroupStyle.pred_increasing increasing whole

/-- Where the styles of an emitted regex stood in the compiled one: at the same numbers, or at the next
ones if the outer group is left out. -/
theorem exists_shift (h : emitted elidable pattern declared = .ok e) :
    ∃ f styles shift, pattern.compile = .ok f ∧ f.styles (.ofList declared) = .ok styles ∧
      ((shift = 0 ∧ e.1 = f.text) ∨ (shift = 1 ∧ f.text = "(" ++ e.1 ++ ")")) ∧
      (∀ k style, (k, style) ∈ e.2 ↔ (k + shift, style) ∈ styles) ∧
      ∀ n style, (n, style) ∈ styles → ∃ k, n = k + shift := by
  obtain ⟨f, styles, compiled, found, rfl⟩ := emitted_eq_ok_iff.1 h
  rcases GroupStyle.elide_cases elidable f.text styles with same | ⟨us, _, chars, -, -, whole, inner⟩
  · rw [same]
    exact ⟨f, styles, 0, compiled, found, .inl ⟨rfl, rfl⟩, fun _ _ => Iff.rfl, fun n _ _ => ⟨n, rfl⟩⟩
  · rw [inner]
    refine ⟨f, styles, 1, compiled, found, .inr ⟨rfl, ?_⟩, ?_, ?_⟩
    · rw [← String.toList_inj, chars]
      simp
    · intro k style
      exact GroupStyle.mem_pred_iff whole
    · intro n style mem
      apply Nat.exists_eq_succ_of_ne_zero
      rintro rfl
      exact whole style mem

/-- The rules of a style are declared for a name. -/
theorem entry_of_mem_patterns (h : emitted elidable pattern declared = .ok e)
    (mem : (k, style) ∈ e.2) {a : α} (rule : a ∈ style.patterns) :
    ∃ name spec, (name, spec) ∈ (NameMap.ofList declared).entries ∧ a ∈ spec.patterns := by
  rcases style_of_mem_emitted h mem with whole | ⟨id, rfl⟩
  · obtain ⟨spec, found, rfl⟩ := Option.map_eq_some_iff.1 whole
    exact ⟨wholeMatch, spec, NameMap.mem_entries_iff.2 found, rule⟩
  · unfold Fragment.declaredPatterns at rule
    cases declaration : Fragment.declarationFor? (.ofList declared) id with
    | none =>
      rw [declaration] at rule
      cases rule
    | some spec =>
      rw [declaration] at rule
      obtain ⟨name, -, -, entry⟩ := Fragment.mem_entries_of_declarationFor? declaration
      exact ⟨name, spec, entry, rule⟩

/-- The scopes of a style are put on a capture or declared for a name. -/
theorem origin_of_mem_scopes (h : emitted elidable pattern declared = .ok e)
    (mem : (k, style) ∈ e.2) {scope : Scope} (on : scope ∈ style.scopes) :
    (∃ id scopes, (id, scopes) ∈ pattern.highlights ∧ scope ∈ scopes) ∨
      ∃ name spec, (name, spec) ∈ (NameMap.ofList declared).entries ∧ spec.scope? = some scope := by
  rcases style_of_mem_emitted h mem with whole | ⟨id, rfl⟩
  · obtain ⟨spec, found, rfl⟩ := Option.map_eq_some_iff.1 whole
    exact .inr ⟨wholeMatch, spec, NameMap.mem_entries_iff.2 found, Option.mem_toList.1 on⟩
  · rcases List.mem_append.1 (List.mem_eraseDups.1 on) with tag | isDeclared
    · rw [Pattern.tagsOf, List.mem_eraseDups, List.mem_flatMap] at tag
      obtain ⟨⟨id', scopes⟩, highlight, on⟩ := tag
      exact .inl ⟨id', scopes, (List.mem_filter.1 highlight).1, on⟩
    · obtain ⟨spec, declaration, found⟩ := Option.bind_eq_some_iff.1 (Option.mem_toList.1 isDeclared)
      obtain ⟨name, -, -, entry⟩ := Fragment.mem_entries_of_declarationFor? declaration
      exact .inr ⟨name, spec, entry, found⟩

/-- Every scope that is put on a capture is in a style. -/
theorem exists_style_of_highlight (h : emitted elidable pattern declared = .ok e) {id : CaptureId}
    {scopes : List Scope} {scope : Scope} (highlight : (id, scopes) ∈ pattern.highlights)
    (on : scope ∈ scopes) : ∃ k style, (k, style) ∈ e.2 ∧ scope ∈ style.scopes := by
  obtain ⟨f, styles, compiled, found, rfl⟩ := emitted_eq_ok_iff.1 h
  have built := builds_of_compile compiled
  have tagged : pattern.isTagged id := List.mem_map.2 ⟨_, highlight, rfl⟩
  have group : f.groupsOf id ≠ [] := by
    rw [Fragment.groupsOf_ne_nil_iff, groups_of_builds built]
    exact Pattern.mem_slots_of_isTagged tagged
  obtain ⟨n, own⟩ := List.exists_mem_of_ne_nil _ group
  obtain ⟨pos, label⟩ := Fragment.mem_groupsOf.1 own
  have style : f.styleOf? (.ofList declared) id = some _ :=
    (styleOf?_of_builds built).2 ⟨.inl tagged, rfl⟩
  have listed := (Fragment.mem_styles found).2 (.inr ⟨pos, id, label, style⟩)
  obtain ⟨k, mem⟩ := GroupStyle.exists_mem_elide_iff.2 ⟨n, listed⟩
  refine ⟨k, _, mem, List.mem_eraseDups.2 (List.mem_append_left _ ?_)⟩
  rw [Pattern.tagsOf, List.mem_eraseDups, List.mem_flatMap]
  exact ⟨(id, scopes), List.mem_filter.2 ⟨highlight, decide_eq_true rfl⟩, on⟩

/-- Whatever is declared for a name is in a style. -/
theorem exists_style_of_entry (h : emitted elidable pattern declared = .ok e) {name : String}
    {spec : Declaration α} (entry : (name, spec) ∈ (NameMap.ofList declared).entries) :
    ∃ k style, (k, style) ∈ e.2 ∧ style.patterns = spec.patterns ∧
      ∀ scope, spec.scope? = some scope → scope ∈ style.scopes := by
  obtain ⟨f, styles, compiled, found, rfl⟩ := emitted_eq_ok_iff.1 h
  have built := builds_of_compile compiled
  have listed : ∃ n style, (n, style) ∈ styles ∧ style.patterns = spec.patterns ∧
      ∀ scope, spec.scope? = some scope → scope ∈ style.scopes := by
    by_cases whole : name = wholeMatch
    · have style : Fragment.wholeStyle? (.ofList declared) =
          some ⟨spec.scope?.toList, spec.patterns⟩ := by
        rw [Fragment.wholeStyle?, ← whole, NameMap.mem_entries_iff.1 entry, Option.map_some]
      refine ⟨0, _, (Fragment.mem_styles found).2 (.inl ⟨rfl, style⟩), rfl, ?_⟩
      intro scope isDeclared
      exact Option.mem_toList.2 isDeclared
    · have isDeclared := Option.isSome_of_eq_some (NameMap.mem_entries_iff.1 entry)
      have finds := (exists_styles_iff built).1 ⟨styles, found⟩ name isDeclared
      rw [Pattern.Finds, if_neg whole] at finds
      obtain ⟨id, called, -⟩ := finds
      obtain ⟨n, own⟩ := List.exists_mem_of_ne_nil _ (groupsOf_ne_nil_of_calls built called)
      obtain ⟨pos, label⟩ := Fragment.mem_groupsOf.1 own
      have declaration := Fragment.declarationFor?_of_mem_entries called.2 whole entry
      have style : f.styleOf? (.ofList declared) id = some _ :=
        (styleOf?_of_builds built).2 ⟨.inr (Option.isSome_of_eq_some declaration), rfl⟩
      refine ⟨n, _, (Fragment.mem_styles found).2 (.inr ⟨pos, id, label, style⟩), ?_, ?_⟩
      · rw [Fragment.declaredPatterns, declaration]
        rfl
      · intro scope declaredAs
        refine List.mem_eraseDups.2 (List.mem_append_right _ (Option.mem_toList.2 ?_))
        rw [Fragment.declaredScope?, declaration]
        exact declaredAs
  obtain ⟨n, style, mem, facts⟩ := listed
  obtain ⟨k, mem⟩ := GroupStyle.exists_mem_elide_iff.2 ⟨n, mem⟩
  exact ⟨k, style, mem, facts⟩

end Emitted

end TextMate
