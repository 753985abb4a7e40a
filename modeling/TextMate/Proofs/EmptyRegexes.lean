import TextMate.Proofs.AllOrNothing
import TextMate.Proofs.RulesInside

/-!
# Empty regexes

There is nothing to highlight in an empty match, so a tag on an empty text is refused, and so is a
declaration for the whole of one. But a group around nothing has a text, of two parentheses. If they are
left out then the scopes of the group are those of an empty regex. This happens to hollow groups only
(`compile_emptyRegexes`).
-/

set_option autoImplicit false

namespace TextMate

variable {α : Type}

/-- Only a parenthesis opens a group. -/
theorem length_captureStartsFrom_le (k : Regex.Cursor) (i : Nat) (cs : List Char) :
    (Regex.captureStartsFrom k i cs).length ≤ cs.count '(' := by
  induction cs generalizing k i with
  | nil => exact Nat.le_refl 0
  | cons c rest ih =>
    have later := ih (k.step .interval c) (i + 1)
    rw [Regex.captureStartsFrom]
    split
    · next opens =>
      obtain rfl : c = '(' := Regex.Cursor.eq_of_groupHead opens.1
      rw [List.count_cons_self, List.length_cons]
      omega
    · exact Nat.le_trans later (List.count_le_count_cons)

/-- Every group of a fragment has its parenthesis. -/
theorem length_groups_le {p : Pattern} {f : Fragment} (h : Builds p f) :
    f.groups.length ≤ f.text.toList.count '(' := by
  have guarded (least : Regex.Precedence) (f : Fragment) :
      f.text.toList.count '(' ≤ (f.guarded least).text.toList.count '(' := by
    unfold Fragment.guarded
    split
    · simp
    · exact Nat.le_refl _
  induction h with
  | leaf text =>
    rw [Fragment.leaf, List.length_replicate]
    exact length_captureStartsFrom_le .top 0 text.toList
  | @sequence _ _ f g _ _ ihp ihq =>
    have left := guarded .sequence f
    have right := guarded .sequence g
    rw [Fragment.groups_beside, Fragment.beside, Fragment.chars_adjoined, List.length_append,
      List.count_append]
    omega
  | @alternation _ _ f g _ _ ihp ihq =>
    rw [Fragment.chars_either, List.count_append, List.count_append]
    show (f.groups ++ g.groups).length ≤ _
    rw [List.length_append]
    omega
  | @repetition _ f _ _ quantifier _ _ _ ih =>
    have atom := guarded .atom f
    rw [Fragment.chars_quantified, List.count_append]
    show (f.guarded .atom).groups.length ≤ _
    rw [Fragment.groups_guarded]
    omega
  | @capture _ f name serial _ ih =>
    rw [Fragment.chars_inGroup, List.count_append, List.count_append]
    show f.groups.length + 1 ≤ 1 + _
    omega
  | @look _ f kind _ ih =>
    rw [Fragment.chars_looked, List.count_append, List.count_append]
    show f.groups.length ≤ _
    omega
  | tag scopes serial _ _ ih => exact ih
  | @tagged _ f scopes serial _ _ _ ih =>
    show f.groups.length + 1 ≤ ("(" ++ f.text ++ ")").toList.count '('
    simp
    omega

theorem eq_singleton {as : List α} {a : α} (few : as.length ≤ 1) (first : as[0]? = some a) :
    as = [a] := by
  cases as with
  | nil => cases first
  | cons b rest =>
    have none : rest.length = 0 := by
      rw [List.length_cons] at few
      omega
    rw [List.getElem?_cons_zero, Option.some.injEq] at first
    rw [first, List.length_eq_zero_iff.1 none]

/-- A group around nothing that is there for its scopes. -/
structure RegexPart.IsHollow (part : RegexPart) : Prop where
  text : ∃ f, part.pattern.compile = .ok f ∧ f.text = "()"
  group : ∃ id, part.pattern.slots = [some id] ∧ part.scopesOf id ≠ []
  whole : (NameMap.ofList part.declared).get? wholeMatch = none

section Styles

variable {p : Pattern} {f : Fragment} {declared : NameMap (Declaration α)}
  {styles : List (Nat × GroupStyle α)}

/-- An empty regex has no styles before anything is left out. -/
theorem styles_of_empty (h : Builds p f) (found : f.styles declared = .ok styles)
    (empty : f.text = "") : styles = [] := by
  have groups : f.groups = [] := by
    have few := length_groups_le h
    rw [empty] at few
    exact List.length_eq_zero_iff.1 (Nat.le_zero.1 few)
  have whole : declared.get? wholeMatch = none := by
    cases declaredAs : declared.get? wholeMatch with
    | none => rfl
    | some spec =>
      have finds := (exists_styles_iff h).1 ⟨styles, found⟩ _ (Option.isSome_of_eq_some declaredAs)
      rw [Pattern.Finds, if_pos rfl] at finds
      exact absurd empty finds
  rw [Fragment.styles_eq_ok found, groups, Fragment.wholeStyle?, whole]
  rfl

/-- With a single group there is a single style. -/
theorem styles_of_group (found : f.styles declared = .ok styles) {id : CaptureId}
    (groups : f.groups = [some id]) (whole : declared.get? wholeMatch = none) :
    styles = ((f.styleOf? declared id).map fun style => (1, style)).toList := by
  rw [Fragment.styles_eq_ok found, groups, Fragment.wholeStyle?, whole, Fragment.stylesFrom_cons]
  exact List.append_nil _

/-- A capture with a scope is tagged or declared, and the scope is in its style. -/
theorem styleOf?_of_scopesOf {part : RegexPart} (h : Builds part.pattern f) {id : CaptureId}
    (scopes : part.scopesOf id ≠ []) :
    f.styleOf? (.ofList part.declared) id = some ⟨part.scopesOf id, part.modesOf id⟩ := by
  refine (styleOf?_of_builds h).2 ⟨?_, rfl⟩
  by_contra bare
  obtain ⟨untagged, undeclared⟩ := not_or.1 bare
  apply scopes
  have tags : part.pattern.tagsOf id = [] := by
    have none := Fragment.tagsOf_eq_nil (mt (mem_highlighted_of_builds h).1 untagged)
    rwa [Fragment.tagsOf, highlights_of_builds h] at none
  have declared : Fragment.declaredScope? (.ofList part.declared) id = none := by
    rw [Fragment.declaredScope?, Option.not_isSome_iff_eq_none.1 undeclared]
    rfl
  rw [RegexPart.scopesOf, tags, declared]
  rfl

end Styles

section Emptied

variable {part : RegexPart} {f : Fragment} {styles : List (Nat × GroupStyle Mode)} {elidable : Bool}
  {e : Emission Mode}

/-- What is left of a hollow group, if it is left out. -/
theorem emitted_of_isHollow (h : emitted true part.pattern part.declared = .ok e)
    (hollow : part.IsHollow) : ∃ id, e = ("", [(0, ⟨part.scopesOf id, part.modesOf id⟩)]) ∧
      part.scopesOf id ≠ [] := by
  obtain ⟨f, styles, compiled, found, rfl⟩ := emitted_eq_ok_iff.1 h
  obtain ⟨f', compiled', text⟩ := hollow.text
  obtain ⟨id, slots, scopes⟩ := hollow.group
  cases Except.ok.inj (compiled.symm.trans compiled')
  have built := builds_of_compile compiled
  have groups : f.groups = [some id] := by rw [groups_of_builds built, slots]
  have only := styles_of_group found groups hollow.whole
  rw [styleOf?_of_scopesOf built scopes] at only
  refine ⟨id, ?_, scopes⟩
  have elided : GroupStyle.isElidable "()" styles = true := by
    rw [only]
    exact GroupStyle.isElidable_iff.2 ⟨⟨_, rfl, scopes⟩, rfl, by decide, by decide⟩
  rw [GroupStyle.elide, Bool.true_and, text, if_pos elided, only]
  rfl

/-- A group that is left out with nothing inside was hollow. -/
theorem isHollow_of_elidable (compiled : part.pattern.compile = .ok f)
    (found : f.styles (.ofList part.declared) = .ok styles)
    (elided : GroupStyle.isElidable f.text styles = true) (empty : GroupStyle.innerText f.text = "") :
    part.IsHollow := by
  have built := builds_of_compile compiled
  obtain ⟨⟨style, first, scopes⟩, whole, wrapped, -⟩ := GroupStyle.isElidable_iff.1 elided
  obtain ⟨us, chars, -⟩ := Regex.eq_of_isWrapped wrapped
  rw [GroupStyle.innerText_eq chars] at empty
  obtain rfl : us = [] := by simpa using empty
  have text : f.text = "()" := String.toList_inj.1 chars
  rcases (Fragment.mem_styles found).1 (NameMap.mem_of_lookup first) with ⟨zero, -⟩ | ⟨-, id, label, own⟩
  · cases zero
  refine ⟨⟨f, compiled, text⟩, ⟨id, ?_, ?_⟩, ?_⟩
  · have few := length_groups_le built
    rw [text] at few
    rw [← groups_of_builds built]
    exact eq_singleton few label
  · have same := ((styleOf?_of_builds built).1 own).2
    rwa [same] at scopes
  · cases declaredAs : (NameMap.ofList part.declared).get? wholeMatch with
    | none => rfl
    | some spec =>
      obtain ⟨style, mem⟩ := exists_style_of_whole found (Option.isSome_of_eq_some declaredAs)
      exact absurd mem (GroupStyle.not_mem_of_lookup whole style)

/-- If a regex is empty and has a style, then it was a hollow group. -/
theorem isHollow_of_emitted (h : emitted elidable part.pattern part.declared = .ok e)
    (empty : e.1 = "") (styled : e.2 ≠ []) : elidable = true ∧ part.IsHollow := by
  obtain ⟨f, styles, compiled, found, rfl⟩ := emitted_eq_ok_iff.1 h
  unfold GroupStyle.elide at empty styled
  split at empty
  · next elided =>
    rw [Bool.and_eq_true] at elided
    exact ⟨elided.1, isHollow_of_elidable compiled found elided.2 empty⟩
  · next kept =>
    rw [if_neg kept] at styled
    exact absurd (styles_of_empty (builds_of_compile compiled) found empty) styled

end Emptied

section Compiled

variable {grammar : String} {g : Grammar} {file : GrammarFile}

/-- Scopes are written as a name. -/
theorem exists_name_of_entryOf {style : GroupStyle Mode} {entry : CaptureRule Rule}
    (h : EntryOf grammar style entry) (scopes : style.scopes ≠ []) :
    ∃ name, entry.name = some name := by
  obtain ⟨names, qualified, joined⟩ := h.name
  cases names with
  | nil => exact absurd (List.forall₂_nil_right_iff.1 qualified) scopes
  | cons _ _ => exact ⟨_, joined⟩

/-- What becomes of a hollow group that is left out. -/
theorem regex_of_isHollow {m : Mode} {part : RegexPart} {regex : RegexField × String × RuleCaptures}
    {e : Emission Mode} (h : RegexOf grammar m part regex e) (allowed : m.mayElide part.field = true)
    (hollow : part.IsHollow) :
    regex.2.1 = "" ∧ ∃ name patterns, regex.2.2 = [(0, ⟨some name, patterns⟩)] := by
  have emission := h.emission
  rw [Mode.emission, allowed] at emission
  obtain ⟨id, rfl, scopes⟩ := emitted_of_isHollow emission hollow
  refine ⟨h.text, ?_⟩
  obtain ⟨⟨k, name?, patterns⟩, rest, ⟨number, entryOf⟩, none, only⟩ :=
    List.forall₂_cons_left_iff.1 h.entries
  obtain ⟨name, named⟩ := exists_name_of_entryOf entryOf scopes
  cases none
  cases number
  cases named
  exact ⟨name, patterns, only⟩

/-- An empty regex with an entry was a hollow group. -/
theorem isHollow_of_regex (h : g.compileRules grammar [] = .ok file) {r : Rule} (has : file.Has r)
    {field : RegexField} {captures : RuleCaptures} (isRegex : (field, "", captures) ∈ r.regexes)
    (carries : captures ≠ []) :
    ∃ m, g.Has m ∧ ∃ part ∈ m.regexes, m.mayElide part.field = true ∧ part.IsHollow ∧
      ∃ e, RegexOf grammar m part (field, "", captures) e := by
  obtain ⟨m, inside, made⟩ := mode_of_file_has h has
  obtain ⟨part, isPart, e, regex⟩ := exists_of_mem_right (regexes_of_yields made) isRegex
  have styled : e.2 ≠ [] := by
    intro none
    have entries := regex.entries
    rw [none, List.forall₂_nil_left_iff] at entries
    exact carries entries
  obtain ⟨allowed, hollow⟩ := isHollow_of_emitted regex.emission regex.text.symm styled
  exact ⟨m, inside, part, isPart, allowed, hollow, e, regex⟩

end Compiled

/-- Which of the empty regexes of a finished grammar carry a highlight. -/
structure EmptyRegexes (g : Grammar) (file : GrammarFile) : Prop where
  /-- It can only be a name for the whole match, which is empty as well. -/
  carried : ∀ r, file.Has r → ∀ field captures, (field, "", captures) ∈ r.regexes →
    captures = [] ∨ ∃ name patterns, captures = [(0, ⟨some name, patterns⟩)]
  /-- None does if the parentheses of every hollow group stay, and only then. -/
  bare : (∀ r, file.Has r → ∀ field captures, (field, "", captures) ∈ r.regexes → captures = []) ↔
    ∀ m, g.Has m → ∀ part ∈ m.regexes, part.IsHollow → m.mayElide part.field = false

/-- An empty regex carries no highlight, unless it was a hollow group that has been left out. -/
theorem compile_emptyRegexes {g : Grammar} {file : GrammarFile} (h : g.compile = .ok file) :
    EmptyRegexes g file := by
  obtain ⟨segment, -, rules⟩ := compile_eq_ok_iff.1 h
  refine ⟨?_, ?_, ?_⟩
  · intro r has field captures isRegex
    by_cases carries : captures = []
    · exact .inl carries
    · obtain ⟨m, -, part, -, allowed, hollow, e, made⟩ := isHollow_of_regex rules has isRegex carries
      exact .inr (regex_of_isHollow made allowed hollow).2
  · intro bare m has part isPart hollow
    by_contra left
    obtain ⟨r, inside, made⟩ := rule_of_grammar_has rules has
    obtain ⟨⟨field, text, captures⟩, isRegex, e, regex⟩ :=
      exists_of_mem_left (regexes_of_yields made) isPart
    obtain ⟨empty, name, patterns, carried⟩ :=
      regex_of_isHollow regex (eq_true_of_ne_false left) hollow
    cases empty
    cases carried
    cases bare r inside field _ isRegex
  · intro kept r has field captures isRegex
    by_contra carries
    obtain ⟨m, inside, part, isPart, left, hollow, -⟩ := isHollow_of_regex rules has isRegex carries
    rw [kept m inside part isPart hollow] at left
    cases left

/-- A hollow group in front of a span whose end refers to it. -/
def hollowOpening : Grammar :=
  (Grammar.new "Toy").withPattern
    (.span (.tag (.capture (.leaf "") "mark" 0) [⟨"keyword"⟩] 1) (.leaf "\\1") none none [] [] []
      false)

/-- Its parentheses stay, and its scope with them. -/
def hollowOpeningFile : GrammarFile where
  name := "Toy"
  scopeName := "source.toy"
  fileTypes := []
  patterns := [.span none none "()" "\\1" [(1, ⟨some "keyword.toy", []⟩)] [] [] none]
  repository := []

theorem compile_emptyRegexes_hollowOpening :
    hollowOpening.compile = .ok hollowOpeningFile ∧ EmptyRegexes hollowOpening hollowOpeningFile ∧
      ∀ m, hollowOpening.Has m → ∀ part ∈ m.regexes, part.IsHollow →
        m.mayElide part.field = false := by
  have compiled : hollowOpening.compile = .ok hollowOpeningFile := by rfl
  have found := compile_emptyRegexes compiled
  refine ⟨compiled, found, found.bare.1 ?_⟩
  rintro r (⟨listed, inside⟩ | ⟨listed, -⟩) field captures isRegex
  · cases List.mem_singleton.1 listed
    cases inside with
    | self => simp [Rule.regexes] at isRegex
    | inner listed _ => cases listed
    | capture isRegex isEntry listed _ =>
      rcases List.mem_cons.1 isRegex with rfl | last
      · cases List.mem_singleton.1 isEntry
        cases listed
      · cases List.mem_singleton.1 last
        cases isEntry
  · cases listed

/-- A hollow group that is all of a regex. -/
def hollowMode : Grammar :=
  (Grammar.new "Toy").withPattern
    (.single (.tag (.capture (.leaf "") "mark" 0) [⟨"keyword"⟩] 1) none [] [])

/-- Its parentheses are left out, and its scope is left. -/
def emptyRule : Rule :=
  .single none "" [(0, ⟨some "keyword.toy", []⟩)] []

/-- There are empty regexes with a highlight. -/
theorem exists_highlighted_emptyRegex :
    ¬ ∀ (g : Grammar) (file : GrammarFile), g.compile = .ok file → ∀ r, file.Has r →
      ∀ field captures, (field, "", captures) ∈ r.regexes → captures = [] := by
  intro bare
  have compiled : hollowMode.compile = .ok ⟨"Toy", "source.toy", [], [emptyRule], []⟩ := by rfl
  have carried := bare _ _ compiled emptyRule (.pattern List.mem_cons_self (.self _)) .whole _
    List.mem_cons_self
  cases carried

end TextMate
