import TextMate.Proofs.Elision
import TextMate.Proofs.Rules
import TextMate.Proofs.Styles
import TextMate.Proofs.Written

/-!
# Where the styles of a regex stand

A style in a rule has the number of a group. That group is the one whose parenthesis was written for
the capture that the style belongs to, and every place of a capture with a style has its entry. This
holds for the emitted text, from which the outer group may have been left out.
-/

set_option autoImplicit false

namespace TextMate

open Regex (openings)

/-- A regex of a mode and what is declared for its captures. -/
structure RegexPart where
  field : RegexField
  pattern : Pattern
  declared : List (String × Declaration Mode)

namespace RegexPart

/-- A capture has a style if it is tagged, or declared by its name. -/
def isStyled (part : RegexPart) (id : CaptureId) : Prop :=
  part.pattern.isTagged id ∨ (Fragment.declarationFor? (.ofList part.declared) id).isSome

/-- The scopes of a capture: those that are put on it before the declared one, each once. -/
def scopesOf (part : RegexPart) (id : CaptureId) : List Scope :=
  (part.pattern.tagsOf id ++ (Fragment.declaredScope? (.ofList part.declared) id).toList).eraseDups

/-- The modes that are declared for a capture. -/
def modesOf (part : RegexPart) (id : CaptureId) : List Mode :=
  Fragment.declaredPatterns (.ofList part.declared) id

end RegexPart

/-- The regexes of a mode, which has one, two or none. -/
def Mode.regexes : Mode → List RegexPart
  | single pattern _ captures _ => [⟨.whole, pattern, captures⟩]
  | span opening closing _ _ openingCaptures closingCaptures _ _ =>
    [⟨.opening, opening, openingCaptures⟩, ⟨.closing, closing, closingCaptures⟩]
  | group _ | includes _ => []

/-- The regexes of a rule with the styles of their groups. -/
def Rule.regexes : Rule → List (RegexField × String × RuleCaptures)
  | single _ regex captures _ => [(.whole, regex, captures)]
  | span _ _ opening closing openingCaptures closingCaptures _ _ =>
    [(.opening, opening, openingCaptures), (.closing, closing, closingCaptures)]
  | includes _ | list _ => []

/-- The text that a pattern leaves in a rule, and the node whose group was left out. -/
inductive Emits (p : Pattern) : Written → Option Address → Prop where
  | whole : Emits p p.written none
  | inner {w : Written} {address : Address} {last : Option Address} :
      p.written = ('(', some address) :: (w ++ [(')', last)]) → Emits p w (some address)

/-- The parenthesis of the group `k` of `text` is the one, and the only one, that the node at
`address` wrote. -/
def IsGroupOf (w : Written) (text : String) (k : Nat) (address : Address) : Prop :=
  ∃ i, (Regex.captureStarts text)[k - 1]? = some i ∧ w[i]? = some ('(', some address) ∧
    ∀ j c, w[j]? = some (c, some address) → j = i

/-- The entry of a group has the scopes of the capture, qualified, and the rules of its modes. -/
structure IsStyleOf (grammar : String) (path : Path) (part : RegexPart) (id : CaptureId) (k : Nat)
    (rule : CaptureRule Rule) : Prop where
  styled : part.isStyled id
  name : ∃ names, List.Forall₂ (fun scope name => scope.qualify grammar = .ok name)
    (part.scopesOf id) names ∧ rule.name = joinNames names
  patterns : Placed.inList ((part.modesOf id).map (Mode.compile grammar))
    (path ++ [.capture part.field k]) = .ok rule.patterns

/-- The styles of an emitted regex stand at the groups of their captures. -/
structure Placement (grammar : String) (path : Path) (part : RegexPart) (text : String)
    (captures : RuleCaptures) (w : Written) (outer : Option Address) : Prop where
  emitted : Emits part.pattern w outer
  text_eq : w.map Prod.fst = text.toList
  increasing : captures.Pairwise fun a b => a.1 < b.1
  numbered : ∀ c ∈ captures, c.1 = 0 ∨ c.1 ≤ Regex.captureCount text
  owned : ∀ k rule, (k, rule) ∈ captures → 1 ≤ k → ∃ address id, IsGroupOf w text k address ∧
    part.pattern.openedAt? address = some id ∧ IsStyleOf grammar path part id k rule
  entered : ∀ address id, part.pattern.openedAt? address = some id → part.isStyled id →
    outer ≠ some address → ∃ k rule, (k, rule) ∈ captures ∧ 1 ≤ k ∧ IsGroupOf w text k address ∧
      IsStyleOf grammar path part id k rule
  outermost : ∀ address, outer = some address → ∃ id rule, (0, rule) ∈ captures ∧
    part.pattern.openedAt? address = some id ∧ IsStyleOf grammar path part id 0 rule

theorem Emits.nodup {p : Pattern} {w : Written} {outer : Option Address} (h : Emits p w outer) :
    w.addresses.Nodup := by
  have part : w.Sublist p.written := by
    cases h with
    | whole => exact List.Sublist.refl _
    | inner written =>
      rw [written]
      exact (List.sublist_append_left w _).cons _
  exact (part.filterMap Prod.snd).nodup (nodup_addresses_written p)

section Counting

variable {w : Written} {text : String} {k : Nat} {address : Address}

theorem isGroupOf (nodup : w.addresses.Nodup) (chars : w.map Prod.fst = text.toList)
    (h : (openings .top w)[k - 1]? = some (some address)) : IsGroupOf w text k address := by
  obtain ⟨i, start, place⟩ := Regex.getElem?_openings h
  rw [chars] at start
  exact ⟨i, start, place, fun j c other => Written.index_unique nodup other place⟩

theorem le_captureCount (chars : w.map Prod.fst = text.toList)
    (h : (openings .top w)[k - 1]? = some (some address)) : k ≤ Regex.captureCount text := by
  have bound := (List.getElem?_eq_some_iff.1 h).1
  rw [Regex.length_openings .top w 0, chars] at bound
  change k - 1 < Regex.captureCount text at bound
  omega

end Counting

section Styles

variable {grammar : String} {path : Path} {part : RegexPart} {f : Fragment}
  {styles : List (Nat × GroupStyle (Placed Rule))}

/-- The style of a capture before it is written out. -/
def RegexPart.styleOf (part : RegexPart) (grammar : String) (id : CaptureId) :
    GroupStyle (Placed Rule) :=
  ⟨part.scopesOf id, (part.modesOf id).map (Mode.compile grammar)⟩

theorem isStyleOf_of_captureRule {id : CaptureId} {k : Nat} {rule : CaptureRule Rule}
    (styled : part.isStyled id)
    (h : captureRule grammar part.field k (part.styleOf grammar id) path = .ok rule) :
    IsStyleOf grammar path part id k rule :=
  ⟨styled, (captureRule_eq_ok_iff.1 h).1, (captureRule_eq_ok_iff.1 h).2⟩

/-- The groups with a style are those of the nodes that open a group for a capture with that
style. -/
theorem mem_styles_compile (hb : Builds part.pattern f) (hp : part.pattern.SelfContained)
    (h : f.styles (.ofList (compileDeclarations grammar part.declared)) = .ok styles) {k : Nat}
    (pos : 1 ≤ k) {style : GroupStyle (Placed Rule)} :
    (k, style) ∈ styles ↔
      ∃ address id, (openings .top part.pattern.written)[k - 1]? = some (some address) ∧
        part.pattern.openedAt? address = some id ∧ part.isStyled id ∧
        style = part.styleOf grammar id := by
  have groups : f.groups =
      (openings .top part.pattern.written).map fun a => a.bind part.pattern.openedAt? := by
    rw [openings_written hb hp, Pattern.map_openers, groups_of_builds hb]
  have own {id : CaptureId} :
      f.styleOf? (.ofList (compileDeclarations grammar part.declared)) id = some style ↔
        part.isStyled id ∧ style = part.styleOf grammar id := by
    rw [styleOf?_of_builds hb, declarationFor?_compile, Option.isSome_map, declaredScope?_compile,
      declaredPatterns_compile]
    rfl
  rw [Fragment.mem_styles h, groups, List.getElem?_map]
  constructor
  · rintro (⟨zero, -⟩ | ⟨-, id, group, found⟩)
    · omega
    · obtain ⟨label, counted, opened⟩ := Option.map_eq_some_iff.1 group
      obtain ⟨address, rfl, opened⟩ := Option.bind_eq_some_iff.1 opened
      exact ⟨address, id, counted, opened, own.1 found⟩
  · rintro ⟨address, id, counted, opened, found⟩
    exact .inr ⟨pos, id, by rw [counted]; exact congrArg some opened, own.2 found⟩

end Styles

/-- What elision leaves of a regex and its styles: `w` is the text that is emitted, `outer` the node
whose group is left out. -/
structure Remains (grammar : String) (part : RegexPart) (text : String)
    (styles : List (Nat × GroupStyle (Placed Rule))) (w : Written) (outer : Option Address) :
    Prop where
  emitted : Emits part.pattern w outer
  text_eq : w.map Prod.fst = text.toList
  increasing : styles.Pairwise fun a b => a.1 < b.1
  numbered : ∀ k style, 1 ≤ k → ((k, style) ∈ styles ↔
    ∃ address id, (openings .top w)[k - 1]? = some (some address) ∧
      part.pattern.openedAt? address = some id ∧ part.isStyled id ∧ style = part.styleOf grammar id)
  listed : ∀ address id, part.pattern.openedAt? address = some id → outer ≠ some address →
    some address ∈ openings .top w
  outermost : ∀ address, outer = some address → ∃ id, part.pattern.openedAt? address = some id ∧
    part.isStyled id ∧ (0, part.styleOf grammar id) ∈ styles

section Elision

variable {grammar : String} {part : RegexPart} {f : Fragment}
  {styles : List (Nat × GroupStyle (Placed Rule))}

/-- The whole text with all its groups. -/
theorem remains_whole (hb : Builds part.pattern f) (hp : part.pattern.SelfContained)
    (h : f.styles (.ofList (compileDeclarations grammar part.declared)) = .ok styles) :
    Remains grammar part f.text styles part.pattern.written none where
  emitted := .whole
  text_eq := Pattern.map_fst_written hb
  increasing := Fragment.styles_increasing h
  numbered _ _ pos := mem_styles_compile hb hp h pos
  listed address id opened _ := by
    rw [openings_written hb hp]
    exact Pattern.mem_openers opened
  outermost := nofun

theorem written_of_wrapped {w : Written} {us : List Char}
    (h : w.map Prod.fst = '(' :: (us ++ [')'])) :
    ∃ label v last, w = ('(', label) :: (v ++ [(')', last)]) ∧ v.map Prod.fst = us := by
  obtain ⟨⟨c, label⟩, rest, rfl, rfl, chars⟩ := List.map_eq_cons_iff.1 h
  obtain ⟨v, ends, rfl, inner, close⟩ := List.map_eq_append_iff.1 chars
  obtain ⟨⟨d, last⟩, rfl, rfl⟩ := List.map_eq_singleton_iff.1 close
  exact ⟨label, v, last, rfl, inner⟩

/-- The text without the outer group, where every other group moves down by one. -/
theorem remains_inner (hb : Builds part.pattern f) (hp : part.pattern.SelfContained)
    (h : f.styles (.ofList (compileDeclarations grammar part.declared)) = .ok styles)
    {us : List Char} (chars : f.text.toList = '(' :: (us ++ [')'])) (head : us.head? ≠ some '?')
    {style : GroupStyle (Placed Rule)} (first : (1, style) ∈ styles)
    (whole : ∀ style', (0, style') ∉ styles) :
    ∃ w address, Remains grammar part (String.ofList us) (styles.map fun g => (g.1 - 1, g.2)) w
      (some address) := by
  obtain ⟨label, w, last, written, inner⟩ :=
    written_of_wrapped ((Pattern.map_fst_written hb).trans chars)
  have counted : openings .top part.pattern.written = label :: openings .top w := by
    rw [written, Regex.openings_numbered w label last (by rwa [inner])]
  obtain ⟨address, id, outer, opened, styled, rfl⟩ := (mem_styles_compile hb hp h (by omega)).1 first
  rw [counted, Nat.sub_self, List.getElem?_cons_zero, Option.some.injEq] at outer
  subst outer
  refine ⟨w, address, ?_, ?_, ?_, ?_, ?_, ?_⟩
  · exact .inner written
  · rw [inner, String.toList_ofList]
  · exact GroupStyle.pred_increasing (Fragment.styles_increasing h) whole
  · intro k style kpos
    have next : (openings .top part.pattern.written)[k + 1 - 1]? = (openings .top w)[k - 1]? := by
      rw [counted, Nat.add_sub_cancel, List.getElem?_cons, if_neg (by omega)]
    rw [GroupStyle.mem_pred_iff whole, mem_styles_compile hb hp h (by omega), next]
  · intro address' id' opened' other
    have mem := Pattern.mem_openers opened'
    rw [← openings_written hb hp, counted] at mem
    rcases List.mem_cons.1 mem with same | mem
    · exact absurd same.symm other
    · exact mem
  · rintro _ ⟨⟩
    exact ⟨id, opened, styled, List.mem_map.2 ⟨_, first, rfl⟩⟩

end Elision

/-- The entries of a rule stand where the styles stood, each written out at its number. -/
theorem Remains.placement {grammar : String} {path : Path} {part : RegexPart} {text : String}
    {styles : List (Nat × GroupStyle (Placed Rule))} {captures : RuleCaptures} {w : Written}
    {outer : Option Address} (h : Remains grammar part text styles w outer)
    (rules : captureRules grammar part.field styles path = .ok captures) :
    Placement grammar path part text captures w outer := by
  have pairs := captureRules_eq_ok_iff.1 rules
  have nodup := h.emitted.nodup
  have entry {k : Nat} {style : GroupStyle (Placed Rule)} (mem : (k, style) ∈ styles) :
      ∃ rule, (k, rule) ∈ captures ∧ captureRule grammar part.field k style path = .ok rule := by
    obtain ⟨⟨k', rule⟩, mem', same, made⟩ := exists_of_mem_left pairs mem
    cases same
    exact ⟨rule, mem', made⟩
  have source {k : Nat} {rule : CaptureRule Rule} (mem : (k, rule) ∈ captures) (pos : 1 ≤ k) :
      ∃ address id, (openings .top w)[k - 1]? = some (some address) ∧
        part.pattern.openedAt? address = some id ∧ IsStyleOf grammar path part id k rule := by
    obtain ⟨⟨k', style⟩, mem', same, made⟩ := exists_of_mem_right pairs mem
    cases same
    obtain ⟨address, id, counted, opened, styled, rfl⟩ := (h.numbered k style pos).1 mem'
    exact ⟨address, id, counted, opened, isStyleOf_of_captureRule styled made⟩
  refine ⟨h.emitted, h.text_eq, ?_, ?_, ?_, ?_, ?_⟩
  · have order := List.pairwise_map.2 h.increasing
    rw [← captureRules_numbers rules] at order
    exact List.pairwise_map.1 order
  · rintro ⟨k, rule⟩ mem
    rcases Nat.eq_zero_or_pos k with zero | pos
    · exact .inl zero
    · obtain ⟨_, _, counted, -⟩ := source mem pos
      exact .inr (le_captureCount h.text_eq counted)
  · intro k rule mem pos
    obtain ⟨address, id, counted, opened, made⟩ := source mem pos
    exact ⟨address, id, isGroupOf nodup h.text_eq counted, opened, made⟩
  · intro address id opened styled inside
    obtain ⟨n, counted⟩ := List.getElem?_of_mem (h.listed address id opened inside)
    have mem : (n + 1, part.styleOf grammar id) ∈ styles :=
      (h.numbered (n + 1) _ (by omega)).2 ⟨address, id, counted, opened, styled, rfl⟩
    obtain ⟨rule, mem', made⟩ := entry mem
    exact ⟨n + 1, rule, mem', by omega, isGroupOf nodup h.text_eq counted,
      isStyleOf_of_captureRule styled made⟩
  · intro address outer
    obtain ⟨id, opened, styled, mem⟩ := h.outermost address outer
    obtain ⟨rule, mem', made⟩ := entry mem
    exact ⟨id, rule, mem', opened, isStyleOf_of_captureRule styled made⟩

/-- The styles of one regex. -/
theorem placement_of_regexWithCaptures {grammar : String} {path : Path} {part : RegexPart}
    {elidable : Bool} {regex : String × RuleCaptures}
    (h : regexWithCaptures grammar part.field elidable part.pattern
      (compileDeclarations grammar part.declared) path = .ok regex)
    (hp : part.pattern.SelfContained) :
    ∃ w outer, Placement grammar path part regex.1 regex.2 w outer := by
  obtain ⟨text, captures⟩ := regex
  obtain ⟨f, styles, compiled, found, rfl, rules⟩ := regexWithCaptures_eq_ok_iff.1 h
  have hb := builds_of_compile compiled
  rcases GroupStyle.elide_cases elidable f.text styles with same | ⟨us, style, chars, head, first,
    whole, inner⟩
  · rw [same] at rules ⊢
    exact ⟨_, none, (remains_whole hb hp found).placement rules⟩
  · rw [inner] at rules ⊢
    obtain ⟨w, address, remains⟩ := remains_inner hb hp found chars head first whole
    exact ⟨w, some address, remains.placement rules⟩

/-- In the rule of a mode whose patterns have self-contained leaves, the styles of every regex stand
at the groups that were written for their captures. -/
theorem placement_compile {grammar : String} {path : Path} {mode : Mode} {rule : Rule}
    (h : mode.compile grammar path = .ok rule)
    (hp : ∀ part ∈ mode.regexes, part.pattern.SelfContained) :
    List.Forall₂ (fun part regex => part.field = regex.1 ∧
      ∃ w outer, Placement grammar path part regex.2.1 regex.2.2 w outer)
      mode.regexes rule.regexes := by
  cases mode with
  | single pattern scope captures contains =>
    obtain ⟨regex, whole, h⟩ := Placed.bind_eq_ok_iff.1 h
    obtain ⟨name, -, h⟩ := Placed.bind_eq_ok_iff.1 h
    obtain ⟨patterns, -, h⟩ := Placed.bind_eq_ok_iff.1 h
    cases h
    have part : ∃ w outer,
        Placement grammar path ⟨.whole, pattern, captures⟩ regex.1 regex.2 w outer :=
      placement_of_regexWithCaptures whole (hp _ List.mem_cons_self)
    exact .cons ⟨rfl, part⟩ .nil
  | span opening closing scope contentScope openingCaptures closingCaptures contains closingLast =>
    obtain ⟨last, closed, h⟩ := Placed.bind_eq_ok_iff.1 h
    obtain ⟨first, opened, h⟩ := Placed.bind_eq_ok_iff.1 h
    obtain ⟨name, -, h⟩ := Placed.bind_eq_ok_iff.1 h
    obtain ⟨contentName, -, h⟩ := Placed.bind_eq_ok_iff.1 h
    obtain ⟨patterns, -, h⟩ := Placed.bind_eq_ok_iff.1 h
    cases h
    have front : ∃ w outer,
        Placement grammar path ⟨.opening, opening, openingCaptures⟩ first.1 first.2 w outer :=
      placement_of_regexWithCaptures opened (hp _ List.mem_cons_self)
    have back : ∃ w outer,
        Placement grammar path ⟨.closing, closing, closingCaptures⟩ last.1 last.2 w outer :=
      placement_of_regexWithCaptures closed (hp _ (List.mem_cons_of_mem _ List.mem_cons_self))
    exact .cons ⟨rfl, front⟩ (.cons ⟨rfl, back⟩ .nil)
  | group modes =>
    obtain ⟨patterns, -, h⟩ := Placed.bind_eq_ok_iff.1 h
    cases h
    exact .nil
  | includes target =>
    cases h
    exact .nil

/-- A tagged pair: one declared capture in two places, with the group of a leaf between them. -/
def pairMode : Mode :=
  .single
    (.tag (.sequence (.capture (.leaf "a") "x" 0)
      (.sequence (.leaf "(,)") (.capture (.leaf "a") "x" 0))) [⟨"meta.pair"⟩] 1)
    none [("x", .scope ⟨"variable.other"⟩)] []

/-- The rule of `pairMode`, without the group of the pair. -/
def pairRule : Rule :=
  .single none "(a)(,)(a)"
    [(0, ⟨some "meta.pair.toy", []⟩), (1, ⟨some "variable.other.toy", []⟩),
      (3, ⟨some "variable.other.toy", []⟩)] []

theorem placement_pairMode :
    pairMode.compile "toy" [] = .ok pairRule ∧
      (∀ part ∈ pairMode.regexes, part.pattern.SelfContained) ∧
      List.Forall₂ (fun part regex => part.field = regex.1 ∧
        ∃ w outer, Placement "toy" [] part regex.2.1 regex.2.2 w outer)
        pairMode.regexes pairRule.regexes := by
  have compiled : pairMode.compile "toy" [] = .ok pairRule := by rfl
  have contained : ∀ part ∈ pairMode.regexes, part.pattern.SelfContained := by decide
  exact ⟨compiled, contained, placement_compile compiled contained⟩

end TextMate
