import TextMate.Proofs.AllOrNothing
import TextMate.Proofs.RulesInside
import TextMate.Proofs.TagCollection

/-!
# The scope names in a finished grammar

A name in a rule is made of the scopes that are assigned there: each is trimmed and gets the last
segment of the grammar's scope name, and a space stands between them. A reader splits such a name at
white space. Scopes without white space inside are then one piece each (`names_of_joined`). A scope is
taken as it was given, so white space inside it stays, and only its last piece gets the segment.
-/

set_option autoImplicit false

namespace TextMate

namespace Text

open Unicode

/-- What stands between white space. -/
def words (text : String) : List String :=
  ((text.toList.splitOnP isBlank).filter fun cs => cs ≠ []).map String.ofList

theorem words_space (s t : String) : words (s ++ " " ++ t) = words s ++ words t := by
  have chars : (s ++ " " ++ t).toList = s.toList ++ ' ' :: t.toList := by simp
  have blank : isBlank ' ' = true := by decide
  rw [words, chars, List.splitOnP_append_cons _ _ blank, List.filter_append, List.map_append]
  rfl

/-- The words of texts with a space between them are the words of each. -/
theorem words_intercalate (texts : List String) :
    words (" ".intercalate texts) = texts.flatMap words := by
  induction texts with
  | nil => rfl
  | cons s texts ih =>
    cases texts with
    | nil => rw [String.intercalate_singleton, List.flatMap_singleton]
    | cons t texts =>
      rw [String.intercalate_cons_cons, words_space, ih]
      rfl

theorem words_eq_singleton {text : String} (solid : ∀ c ∈ text.toList, isBlank c = false)
    (nonempty : text ≠ "") : words text = [text] := by
  have chars : text.toList ≠ [] := by simpa using nonempty
  rw [words, List.splitOnP_eq_singleton solid]
  simp [chars]

end Text

namespace Scope

variable {segment : String} {s t : Scope}

/-- The name of a scope in a grammar whose scope name ends in `segment`. -/
def nameIn (segment : String) (s : Scope) : String :=
  Text.trim s.text ++ "." ++ segment

/-- No white space is left when the text is trimmed. -/
def IsOneWord (s : Scope) : Prop :=
  ∀ c ∈ (Text.trim s.text).toList, Unicode.isBlank c = false

theorem words_nameIn (solid : ∀ c ∈ segment.toList, Unicode.isBlank c = false) (h : s.IsOneWord) :
    Text.words (s.nameIn segment) = [s.nameIn segment] := by
  have chars : (s.nameIn segment).toList = (Text.trim s.text).toList ++ '.' :: segment.toList := by
    simp [nameIn]
  apply Text.words_eq_singleton
  · intro c mem
    rw [chars] at mem
    rcases List.mem_append.1 mem with front | rest
    · exact h c front
    · rcases List.mem_cons.1 rest with rfl | rest
      · decide
      · exact solid c rest
  · rw [ne_eq, ← String.toList_inj, chars]
    simp

/-- Scopes with one name have one trimmed text. -/
theorem trim_eq_of_nameIn (h : s.nameIn segment = t.nameIn segment) :
    Text.trim s.text = Text.trim t.text := by
  rw [← String.toList_inj] at h ⊢
  simpa [nameIn] using h

end Scope

/-- The last segment of a grammar's scope name has no white space. -/
theorem Grammar.segment_solid {g : Grammar} {segment : String} (h : g.segment = .ok segment) :
    ∀ c ∈ segment.toList, Unicode.isBlank c = false :=
  fun c mem => ((segment_eq_ok_iff.1 h).2.2 c mem).2

theorem nodup_eraseDups (scopes : List Scope) : scopes.eraseDups.Nodup := by
  induction scopes using List.reverseRecOn with
  | nil => exact .nil
  | append_singleton scopes scope ih =>
    rw [eraseDups_concat]
    split
    · exact ih
    · next new =>
      refine List.nodup_append.2 ⟨ih, List.pairwise_singleton _ scope, ?_⟩
      rintro old mem _ last rfl
      exact new (List.mem_singleton.1 last ▸ List.mem_eraseDups.1 mem)

/-- The pieces of a name are the qualified scopes in their order, and no piece occurs twice. -/
def EachOnce (segment : String) (scopes : List Scope) (text : String) : Prop :=
  Text.words text = scopes.map (Scope.nameIn segment) ∧ (Text.words text).Nodup

/-- The name that is written for scopes. -/
structure Names (segment : String) (scopes : List Scope) (name : Option String) : Prop where
  /-- No name is written without a scope. -/
  unnamed : name = none ↔ scopes = []
  /-- A blank scope has no name. -/
  nonempty : ∀ scope ∈ scopes, Text.trim scope.text ≠ ""
  /-- The pieces are those of the qualified scopes. -/
  pieces : ∀ text, name = some text → ∀ piece,
    piece ∈ Text.words text ↔ ∃ scope ∈ scopes, piece ∈ Text.words (scope.nameIn segment)
  /-- They come in the order of the scopes, each at its first occurrence. -/
  inOrder : ∀ text, name = some text →
    (Text.words text).eraseDups = (scopes.flatMap fun s => Text.words (s.nameIn segment)).eraseDups
  /-- Scopes that differ when they are trimmed have all their pieces there. -/
  complete : ∀ text, name = some text → (scopes.map fun s => Text.trim s.text).Nodup →
    Text.words text = scopes.flatMap fun s => Text.words (s.nameIn segment)
  /-- A piece is a whole qualified scope if there is no white space inside the scopes. -/
  whole : ∀ text, name = some text → (∀ scope ∈ scopes, scope.IsOneWord) →
    ∀ piece ∈ Text.words text, ∃ scope ∈ scopes, piece = scope.nameIn segment
  /-- If that is so and the scopes differ when they are trimmed, there is one piece for each. -/
  eachOnce : ∀ text, name = some text → (∀ scope ∈ scopes, scope.IsOneWord) →
    (scopes.map fun s => Text.trim s.text).Nodup → EachOnce segment scopes text

section Joined

variable {segment : String} {scopes : List Scope}

/-- The pieces of the joined names of scopes. -/
theorem words_joined (segment : String) (scopes : List Scope) :
    Text.words (" ".intercalate (scopes.map (Scope.nameIn segment))) =
      scopes.flatMap fun s => Text.words (s.nameIn segment) := by
  rw [Text.words_intercalate, List.flatMap_map]

theorem words_of_oneWord (solid : ∀ c ∈ segment.toList, Unicode.isBlank c = false)
    (single : ∀ scope ∈ scopes, scope.IsOneWord) :
    (scopes.flatMap fun s => Text.words (s.nameIn segment)) = scopes.map (Scope.nameIn segment) := by
  rw [List.map_eq_flatMap]
  exact List.flatMap_congr fun s mem => Scope.words_nameIn solid (single s mem)

theorem nodup_nameIn (different : (scopes.map fun s => Text.trim s.text).Nodup) :
    (scopes.map (Scope.nameIn segment)).Nodup := by
  rw [List.Nodup, List.pairwise_map] at different ⊢
  exact different.imp fun ne same => ne (Scope.trim_eq_of_nameIn same)

/-- Scopes that qualify are not blank, and their names are those in the grammar. -/
theorem names_of_qualify {names : List String}
    (h : List.Forall₂ (fun scope name => scope.qualify segment = .ok name) scopes names) :
    (∀ scope ∈ scopes, Text.trim scope.text ≠ "") ∧ names = scopes.map (Scope.nameIn segment) := by
  induction h with
  | nil => exact ⟨nofun, rfl⟩
  | cons first _ ih =>
    obtain ⟨nonempty, rfl⟩ := Scope.qualify_eq_ok_iff.1 first
    exact ⟨List.forall_mem_cons.2 ⟨nonempty, ih.1⟩, by rw [ih.2]; rfl⟩

/-- What is written for scopes that qualify. -/
theorem names_of_joined (solid : ∀ c ∈ segment.toList, Unicode.isBlank c = false)
    {name : Option String}
    (h : ∃ names, List.Forall₂ (fun scope name => scope.qualify segment = .ok name) scopes names ∧
      name = joinNames names) : Names segment scopes name := by
  obtain ⟨_, qualified, rfl⟩ := h
  obtain ⟨nonempty, rfl⟩ := names_of_qualify qualified
  have unnamed : joinNames (scopes.map (Scope.nameIn segment)) = none ↔ scopes = [] := by
    cases scopes <;> simp [joinNames]
  -- How often a piece is repeated is left open where scopes differ only until they are trimmed.
  have written {text : String} (h : joinNames (scopes.map (Scope.nameIn segment)) = some text) :
      Text.words text = scopes.flatMap fun s => Text.words (s.nameIn segment) := by
    rw [← words_joined]
    unfold joinNames at h
    split at h
    · cases h
    · cases h
      rfl
  refine ⟨unnamed, nonempty, ?_, ?_, ?_, ?_, ?_⟩
  · intro text named piece
    rw [written named, List.mem_flatMap]
  · intro text named
    rw [written named]
  · intro text named _
    exact written named
  · intro text named single piece mem
    rw [written named, words_of_oneWord solid single] at mem
    obtain ⟨scope, on, rfl⟩ := List.mem_map.1 mem
    exact ⟨scope, on, rfl⟩
  · intro text named single different
    have pieces := (written named).trans (words_of_oneWord solid single)
    exact ⟨pieces, by rw [pieces]; exact nodup_nameIn different⟩

theorem names_of_qualified? (solid : ∀ c ∈ segment.toList, Unicode.isBlank c = false)
    {field : Field} {scope : Option Scope} {path : Path} {name : Option String}
    (h : qualified? segment field scope path = .ok name) : Names segment scope.toList name := by
  apply names_of_joined solid
  cases scope with
  | none =>
    cases h
    exact ⟨[], .nil, rfl⟩
  | some scope =>
    obtain ⟨text, made, h⟩ := Placed.bind_eq_ok_iff.1 h
    cases h
    refine ⟨[text], .cons (qualified_eq_ok_iff.1 made) .nil, ?_⟩
    rw [joinNames, String.intercalate_singleton]
    exact List.cons_ne_nil _ _

end Joined

/-- The scopes of a mode itself that are meant for a field. -/
def Mode.scopesFor : Mode → Field → List Scope
  | single _ scope _ _, .name => scope.toList
  | span _ _ scope _ _ _ _ _, .name => scope.toList
  | span _ _ _ contentScope _ _ _ _, .contentName => contentScope.toList
  | _, _ => []

/-- What is written into a field of a rule. -/
def Rule.nameFor : Rule → Field → Option String
  | single name _ _ _, .name => name
  | span name _ _ _ _ _ _ _, .name => name
  | span _ contentName _ _ _ _ _ _, .contentName => contentName
  | _, _ => none

/-- The scopes that are assigned to a group of the regex `f`: what is declared for the whole match, or
else the scopes of the capture that the group was opened for. -/
def RegexPart.scopesAt (part : RegexPart) (f : Fragment) (group : Nat) : List Scope :=
  if group = 0 then (((NameMap.ofList part.declared).get? wholeMatch).bind Declaration.scope?).toList
  else
    match f.groups[group - 1]? with
    | some (some id) => part.scopesOf id
    | _ => []

/-- The names in the rule of a mode. -/
structure Labelled (segment : String) (mode : Mode) (rule : Rule) : Prop where
  own : ∀ field, Names segment (mode.scopesFor field) (rule.nameFor field)
  /-- The name of a group is that of its scopes. If the outer group was left out, the group had the
  next number before. No scope is assigned to it twice. -/
  groups : ∀ regex ∈ rule.regexes, ∀ group entry, (group, entry) ∈ regex.2.2 →
    ∃ part ∈ mode.regexes, part.field = regex.1 ∧ ∃ f shift, part.pattern.compile = .ok f ∧
      ((shift = 0 ∧ regex.2.1 = f.text) ∨ (shift = 1 ∧ f.text = "(" ++ regex.2.1 ++ ")")) ∧
      (part.scopesAt f (group + shift)).Nodup ∧
      Names segment (part.scopesAt f (group + shift)) entry.name

section Labels

variable {segment : String} {mode : Mode} {rule : Rule} {part : RegexPart} {f : Fragment}

theorem nodup_scopesAt (part : RegexPart) (f : Fragment) (group : Nat) :
    (part.scopesAt f group).Nodup := by
  unfold RegexPart.scopesAt
  split
  · cases ((NameMap.ofList part.declared).get? wholeMatch).bind Declaration.scope? <;> simp
  · split
    · exact nodup_eraseDups _
    · exact .nil

/-- The scopes of a style are those that are assigned to its group. -/
theorem scopes_of_mem_styles (h : Builds part.pattern f) {styles : List (Nat × GroupStyle Mode)}
    (found : f.styles (.ofList part.declared) = .ok styles) {group : Nat} {style : GroupStyle Mode}
    (mem : (group, style) ∈ styles) : style.scopes = part.scopesAt f group := by
  unfold RegexPart.scopesAt
  rcases (Fragment.mem_styles found).1 mem with ⟨rfl, whole⟩ | ⟨pos, id, label, own⟩
  · obtain ⟨spec, declared, rfl⟩ := Option.map_eq_some_iff.1 whole
    rw [if_pos rfl, declared]
    rfl
  · obtain ⟨-, rfl⟩ := (styleOf?_of_builds h).1 own
    rw [if_neg (Nat.one_le_iff_ne_zero.1 pos), label]
    rfl

/-- Where the style of an emitted regex stood before the outer group was left out. -/
theorem exists_scopesAt {elidable : Bool} {e : Emission Mode}
    (h : emitted elidable part.pattern part.declared = .ok e) :
    ∃ f shift, part.pattern.compile = .ok f ∧
      ((shift = 0 ∧ e.1 = f.text) ∨ (shift = 1 ∧ f.text = "(" ++ e.1 ++ ")")) ∧
      ∀ group style, (group, style) ∈ e.2 → style.scopes = part.scopesAt f (group + shift) := by
  obtain ⟨f, styles, shift, compiled, found, text, moved, -⟩ := exists_shift h
  refine ⟨f, shift, compiled, text, fun group style mem => ?_⟩
  exact scopes_of_mem_styles (builds_of_compile compiled) found ((moved group style).1 mem)

/-- The rule of a mode has the names of the mode's scopes. -/
theorem labelled_of_yields (solid : ∀ c ∈ segment.toList, Unicode.isBlank c = false)
    (h : mode.Yields segment rule) : Labelled segment mode rule where
  own field := by
    have unnamed : Names segment [] none := names_of_joined solid ⟨[], .nil, rfl⟩
    cases makes_iff.2 (h []) with
    | single _ named _ =>
      cases field with
      | name => exact names_of_qualified? solid named
      | contentName | regex _ => exact unnamed
    | span _ _ named content _ =>
      cases field with
      | name => exact names_of_qualified? solid named
      | contentName => exact names_of_qualified? solid content
      | regex _ => exact unnamed
    | group _ | includes _ => exact unnamed
  groups regex isRegex group entry isEntry := by
    obtain ⟨part, isPart, e, made⟩ := exists_of_mem_right (regexes_of_yields h) isRegex
    obtain ⟨f, shift, compiled, text, scopes⟩ := exists_scopesAt made.emission
    obtain ⟨⟨_, style⟩, styled, rfl, named⟩ := exists_of_mem_right made.entries isEntry
    refine ⟨part, isPart, made.field, f, shift, compiled, ?_, nodup_scopesAt part f _, ?_⟩
    · rw [made.text]
      exact text
    · rw [← scopes _ style styled]
      exact names_of_joined solid named.name

end Labels

/-- The names in a finished grammar. -/
structure ScopeNames (g : Grammar) (file : GrammarFile) (segment : String) : Prop where
  /-- Every rule, at any depth, has the names of its mode. -/
  everywhere : ∀ rule, file.Has rule →
    ∃ m, g.Has m ∧ m.Yields segment rule ∧ Labelled segment m rule
  /-- The rule at the place of a mode has the names of that mode. -/
  placed : ∀ place m, g.Holds place m → ∃ rule, file.at? place = some rule ∧ Labelled segment m rule

/-- Names in a finished grammar are the qualified scopes that are assigned there. -/
theorem compile_scopeNames {g : Grammar} {file : GrammarFile} (h : g.compile = .ok file) :
    ∃ segment, g.segment = .ok segment ∧ file.scopeName = rootSegment ++ segment ∧
      ScopeNames g file segment := by
  obtain ⟨segment, named, rules⟩ := compile_eq_ok_iff.1 h
  have solid := Grammar.segment_solid named
  refine ⟨segment, named, ?_, ?_, ?_⟩
  · obtain ⟨_, -, made⟩ := Placed.bind_eq_ok_iff.1 rules
    obtain ⟨_, -, made⟩ := Placed.bind_eq_ok_iff.1 made
    cases made
    rfl
  · intro rule has
    obtain ⟨m, inside, made⟩ := mode_of_file_has rules has
    exact ⟨m, inside, made, labelled_of_yields solid made⟩
  · intro place m held
    obtain ⟨rule, found, made⟩ := at?_compileRules held rules
    exact ⟨rule, found, labelled_of_yields solid (yields_of_compile made)⟩

/-- A rule whose scope has white space inside. -/
def blankInside : Mode :=
  .single (.leaf "x") (some ⟨"a b"⟩) [] []

/-- Only the end of the name has the segment. -/
def blankInsideFile : GrammarFile where
  name := "Toy"
  scopeName := "source.toy"
  fileTypes := []
  patterns := [.single (some "a b.toy") "x" [] []]
  repository := []

/-- A capture with scopes that are the same when they are trimmed. -/
def trimmedAlike : RegexPart where
  field := .whole
  pattern := .tag (.capture (.leaf "x") "x" 0) [⟨"a"⟩, ⟨" a"⟩] 1
  declared := []

/-- The fragment of `trimmedAlike`. -/
def trimmedAlikeFragment : Fragment where
  text := "(x)"
  precedence := .atom
  groups := [some ⟨0, some "x"⟩]
  bound := [⟨0, some "x"⟩]
  highlights := [(⟨0, some "x"⟩, [⟨"a"⟩, ⟨" a"⟩])]

/-- Both scopes are written for the group, which is the whole match here. -/
def trimmedAlikeFile : GrammarFile where
  name := "Toy"
  scopeName := "source.toy"
  fileTypes := []
  patterns := [.single none "x" [(0, ⟨some "a.toy a.toy", []⟩)] []]
  repository := []

/-- White space inside a scope makes more pieces of it, and the first of them lacks the segment. Scopes
that only differ at their ends make a piece twice. -/
theorem not_eachOnce :
    (((Grammar.new "Toy").withPattern blankInside).compile = .ok blankInsideFile ∧
      blankInside.scopesFor .name = [⟨"a b"⟩] ∧ Text.words "a b.toy" = ["a", "b.toy"] ∧
      ¬ EachOnce "toy" (blankInside.scopesFor .name) "a b.toy") ∧
    ((Grammar.new "Toy").withPattern (.single trimmedAlike.pattern none [] [])).compile =
        .ok trimmedAlikeFile ∧
      trimmedAlike.pattern.compile = .ok trimmedAlikeFragment ∧
      trimmedAlike.scopesAt trimmedAlikeFragment (0 + 1) = [⟨"a"⟩, ⟨" a"⟩] ∧
      ¬ EachOnce "toy" (trimmedAlike.scopesAt trimmedAlikeFragment (0 + 1)) "a.toy a.toy" := by
  have inside : Text.words "a b.toy" = ["a", "b.toy"] := by decide
  have alike : Text.words "a.toy a.toy" = ["a.toy", "a.toy"] := by decide
  refine ⟨⟨by rfl, by rfl, inside, ?_⟩, by rfl, by rfl, by decide, ?_⟩
  · rintro ⟨pieces, -⟩
    rw [inside] at pieces
    simp [blankInside, Mode.scopesFor] at pieces
  · rintro ⟨-, distinct⟩
    rw [alike] at distinct
    simp at distinct

/-- Scopes from two tags on a capture and from its declaration, one of them with a blank at its end. -/
def taggedTwice : Grammar :=
  (Grammar.new "Toy").withPattern
    (.single
      (.sequence (.leaf "f")
        (.tag (.tag (.capture (.leaf "x") "x" 0) [⟨"b "⟩, ⟨"a"⟩] 1) [⟨"c"⟩, ⟨"a"⟩] 2))
      (some ⟨" meta "⟩) [("x", .scope ⟨"d"⟩)] [])

def taggedTwiceFile : GrammarFile where
  name := "Toy"
  scopeName := "source.toy"
  fileTypes := []
  patterns := [.single (some "meta.toy") "f(x)" [(1, ⟨some "b.toy a.toy c.toy d.toy", []⟩)] []]
  repository := []

theorem compile_scopeNames_taggedTwice :
    taggedTwice.compile = .ok taggedTwiceFile ∧
      (∃ segment, taggedTwice.segment = .ok segment ∧
        taggedTwiceFile.scopeName = rootSegment ++ segment ∧
        ScopeNames taggedTwice taggedTwiceFile segment) ∧
      EachOnce "toy" [⟨"b "⟩, ⟨"a"⟩, ⟨"c"⟩, ⟨"d"⟩] "b.toy a.toy c.toy d.toy" := by
  have compiled : taggedTwice.compile = .ok taggedTwiceFile := by rfl
  exact ⟨compiled, compile_scopeNames compiled, by decide, by decide⟩

end TextMate
