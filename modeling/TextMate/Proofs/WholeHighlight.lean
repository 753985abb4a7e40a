import TextMate.Pattern.Serial
import TextMate.Proofs.Names
import TextMate.Proofs.Scanned
import TextMate.Proofs.Wrapping

/-!
# Highlighting a whole pattern

To highlight all that a pattern matches, it is captured and the capture is highlighted. That costs
no group: the new group is the outer one, all others move up by one, and leaving the outer group out
moves them down again. What remains is the regex and the styles of the pattern, and the scope on the
whole match (`elide_highlightedAs`).
-/

set_option autoImplicit false

namespace TextMate

variable {α : Type}

/-- The pattern in a new capture called `name`, which is highlighted with `scope`. -/
def Pattern.highlightedAs (p : Pattern) (name : String) (scope : Scope) : Numbered Pattern := do
  (← p.named name).tags [scope]

/-- The fragment in a numbered group that is highlighted with `scope`. -/
def Fragment.highlightedAs (f : Fragment) (id : CaptureId) (scope : Scope) : Fragment :=
  (f.inGroup id).highlight id [scope]

section Highlighted

variable {p : Pattern} {f : Fragment} {name : String} {scope : Scope} {next : Nat}
  {declared : NameMap (Declaration α)}

theorem builds_highlightedAs (h : Builds p f) (name : String) (scope : Scope) (next : Nat) :
    Builds ((p.highlightedAs name scope).run next).1
      (f.highlightedAs ⟨next, some name⟩ scope) :=
  .tag [scope] (next + 1) rfl (.capture name next h)

/-- A new serial number is that of no group. -/
theorem ne_of_fresh (fresh : ∀ serial ∈ p.serials, serial < next) {id : CaptureId}
    (h : some id ∈ p.slots) (name? : Option String) : id ≠ ⟨next, name?⟩ := by
  rintro rfl
  exact Nat.lt_irrefl next (fresh next (Pattern.serial_mem_of_mem_slots h))

/-- A declared name that is not the new one finds what it found before. -/
theorem finds_highlightedAs {x : String} (h : p.Finds f.text x) (whole : x ≠ wholeMatch)
    (other : x ≠ name) (text : String) :
    ((p.highlightedAs name scope).run next).1.Finds text x := by
  have same : ∀ id, ((p.highlightedAs name scope).run next).1.Calls x id ↔ p.Calls x id := by
    intro id
    change (id ∈ p.namedCaptures ++ [⟨next, some name⟩] ∧ id.name? = some x) ↔ _
    refine ⟨fun ⟨mem, called⟩ => ⟨?_, called⟩, fun h => ⟨List.mem_append_left _ h.1, h.2⟩⟩
    refine (List.mem_append.1 mem).resolve_right fun new => ?_
    obtain rfl := List.mem_singleton.1 new
    exact other (Option.some.inj called).symm
  unfold Pattern.Finds at h ⊢
  rw [if_neg whole] at h ⊢
  obtain ⟨id, called, unique⟩ := h
  exact ⟨id, (same id).2 called, fun id' called' => unique id' ((same id').1 called')⟩

/-- The new group has the scope and nothing else. -/
theorem styleOf?_new (h : Builds p f) (fresh : ∀ serial ∈ p.serials, serial < next)
    (undeclared : declared.get? name = none) :
    (f.highlightedAs ⟨next, some name⟩ scope).styleOf? declared ⟨next, some name⟩ =
      some ⟨[scope], []⟩ := by
  have untagged : ∀ scopes, (⟨next, some name⟩, scopes) ∉ p.highlights := by
    intro scopes mem
    have slot := Pattern.mem_slots_of_isTagged (List.mem_map_of_mem (f := Prod.fst) mem)
    exact ne_of_fresh fresh slot (some name) rfl
  have declaration : Fragment.declarationFor? declared ⟨next, some name⟩ = none := by
    simp [Fragment.declarationFor?, undeclared]
  have tags : ((p.highlightedAs name scope).run next).1.tagsOf ⟨next, some name⟩ = [scope] := by
    have none : p.highlights.filter (fun h => h.1 = (⟨next, some name⟩ : CaptureId)) = [] := by
      rw [List.filter_eq_nil_iff]
      rintro ⟨id, scopes⟩ mem own
      obtain rfl : id = ⟨next, some name⟩ := by simpa using own
      exact untagged scopes mem
    have all : ((p.highlightedAs name scope).run next).1.highlights =
        p.highlights ++ [(⟨next, some name⟩, [scope])] := rfl
    rw [Pattern.tagsOf, all, List.filter_append, none]
    simp [List.eraseDups_cons]
  refine (styleOf?_of_builds (builds_highlightedAs h name scope next)).2 ⟨.inl ?_, ?_⟩
  · exact List.mem_map_of_mem (f := Prod.fst) (List.mem_append_right p.highlights List.mem_cons_self)
  · simp [tags, Fragment.declaredScope?, Fragment.declaredPatterns, declaration,
      List.eraseDups_cons]

/-- Every other group has the style that it had before. -/
theorem styleOf?_old {id new : CaptureId} (other : id ≠ new) :
    (f.highlightedAs new scope).styleOf? declared id = f.styleOf? declared id := by
  have highlighted : id ∈ (f.highlightedAs new scope).highlighted ↔ id ∈ f.highlighted := by
    simp [Fragment.highlighted, Fragment.highlightedAs, Fragment.highlight, Fragment.inGroup, other]
  have tags : (f.highlightedAs new scope).tagsOf id = f.tagsOf id := by
    simp [Fragment.tagsOf, Fragment.highlightedAs, Fragment.highlight, Fragment.inGroup, other.symm]
  simp only [Fragment.styleOf?, highlighted, tags]

/-- The styles of the highlighted pattern: the new group comes first, all others move up by one. -/
theorem styles_highlightedAs (h : Builds p f) (fresh : ∀ serial ∈ p.serials, serial < next)
    (whole : declared.get? wholeMatch = none) (undeclared : declared.get? name = none)
    {styles : List (Nat × GroupStyle α)} (found : f.styles declared = .ok styles) :
    (f.highlightedAs ⟨next, some name⟩ scope).styles declared =
      .ok ((1, ⟨[scope], []⟩) :: styles.map fun s => (s.1 + 1, s.2)) := by
  obtain ⟨names, rfl⟩ := (styles_eq_ok_iff h).1 found
  have built := builds_highlightedAs h name scope next
  refine (styles_eq_ok_iff built).2 ⟨?_, ?_⟩
  · rintro ⟨x, spec⟩ mem
    have declaredAs := NameMap.mem_entries_iff.1 mem
    have notWhole : x ≠ wholeMatch := by
      rintro rfl
      rw [whole] at declaredAs
      cases declaredAs
    have notNew : x ≠ name := by
      rintro rfl
      rw [undeclared] at declaredAs
      cases declaredAs
    have before := (checkName_eq_ok_iff h).1 (names (x, spec) mem)
    exact (checkName_eq_ok_iff built).2 (finds_highlightedAs before notWhole notNew _)
  · have noWhole : Fragment.wholeStyle? declared = none := by rw [Fragment.wholeStyle?, whole]; rfl
    have others : ∀ id, some id ∈ f.groups →
        (f.highlightedAs ⟨next, some name⟩ scope).styleOf? declared id = f.styleOf? declared id := by
      intro id mem
      rw [groups_of_builds h] at mem
      exact styleOf?_old (ne_of_fresh fresh mem (some name))
    change _ = _ ++ (f.highlightedAs ⟨next, some name⟩ scope).stylesFrom declared 1
      (some ⟨next, some name⟩ :: f.groups)
    rw [noWhole, Fragment.stylesFrom_cons, Option.bind_some, styleOf?_new h fresh undeclared,
      Fragment.stylesFrom_add, Fragment.stylesFrom_congr others]
    rfl

end Highlighted

namespace GroupStyle

/-- The entries of a list of styles, all moved up by one, do not include the whole match. -/
theorem lookup_zero_moved (styles : List (Nat × GroupStyle α)) :
    (styles.map fun s => (s.1 + 1, s.2)).lookup 0 = none := by
  rw [List.lookup_eq_none_iff]
  intro s mem
  obtain ⟨t, -, rfl⟩ := List.mem_map.1 mem
  simp

/-- The outer group is left out if it has a scope, and nothing else stands in the way. -/
theorem elide_moved {text : String} {us : List Char} (chars : text.toList = '(' :: (us ++ [')']))
    (wrapped : Regex.isWrapped text = true) (plain : Regex.hasBackreference text = false)
    (scope : Scope) (styles : List (Nat × GroupStyle α)) :
    elide true text ((1, ⟨[scope], []⟩) :: styles.map fun s => (s.1 + 1, s.2)) =
      (String.ofList us, (0, ⟨[scope], []⟩) :: styles) := by
  have elidable :
      isElidable text ((1, ⟨[scope], []⟩) :: styles.map fun s => (s.1 + 1, s.2)) = true := by
    have whole := lookup_zero_moved styles
    simp [isElidable, List.lookup_cons, whole, wrapped, plain]
  rw [elide, elidable, Bool.and_self, if_pos rfl, innerText_eq chars]
  simp [Function.comp_def]

end GroupStyle

/-- A pattern that is captured under a new name and highlighted has the regex and the styles of the
pattern itself, and the scope is that of the whole match. The text may be empty. -/
theorem elide_highlightedAs {p : Pattern} {f : Fragment} (h : p.compile = .ok f)
    (hp : p.SelfContained) (plain : Regex.hasBackreference f.text = false) {next : Nat}
    (fresh : ∀ serial ∈ p.serials, serial < next) (name : String) (scope : Scope)
    {declared : NameMap (Declaration α)} (whole : declared.get? wholeMatch = none)
    (undeclared : declared.get? name = none) {styles : List (Nat × GroupStyle α)}
    (found : f.styles declared = .ok styles) :
    ∃ g moved, ((p.highlightedAs name scope).run next).1.compile = .ok g ∧
      g.styles declared = .ok moved ∧
      GroupStyle.elide true g.text moved = (f.text, (0, ⟨[scope], []⟩) :: styles) := by
  have built := builds_of_compile h
  refine ⟨f.highlightedAs ⟨next, some name⟩ scope, _,
    compile_of_builds (builds_highlightedAs built name scope next),
    styles_highlightedAs built fresh whole undeclared found, ?_⟩
  have chars : (f.highlightedAs ⟨next, some name⟩ scope).text.toList = '(' :: (f.text.toList ++ [')']) :=
    Fragment.chars_inGroup f ⟨next, some name⟩
  have wrapped := Regex.isWrapped_group (scanned built hp).selfContained chars
  have plain' : Regex.hasBackreference (f.highlightedAs ⟨next, some name⟩ scope).text = false := by
    rw [Regex.hasBackreference, chars, Regex.hasBackreferenceIn_group]
    exact plain
  rw [GroupStyle.elide_moved chars wrapped plain', String.ofList_toList]

/-- A choice with a parenthesis in a set, and a capture that stands in two places behind it. -/
def choiceBeforePair : Pattern :=
  .sequence (.leaf "a|[)]") (.sequence (.capture (.leaf "c") "c" 0) (.capture (.leaf "c") "c" 0))

/-- The fragment of `choiceBeforePair`. -/
def choiceBeforePairFragment : Fragment where
  text := "(?:a|[)])(c)(c)"
  precedence := .sequence
  groups := [some ⟨0, some "c"⟩, some ⟨0, some "c"⟩]
  bound := [⟨0, some "c"⟩, ⟨0, some "c"⟩]
  highlights := []

/-- A scope for the capture of `choiceBeforePair`. -/
def pairScope : NameMap (Declaration Unit) :=
  .ofList [("c", .scope ⟨"storage.type"⟩)]

theorem elide_highlightedAs_choiceBeforePair :
    choiceBeforePair.compile = .ok choiceBeforePairFragment ∧ choiceBeforePair.SelfContained ∧
      Regex.hasBackreference choiceBeforePairFragment.text = false ∧
      (∀ serial ∈ choiceBeforePair.serials, serial < 7) ∧
      pairScope.get? wholeMatch = none ∧ pairScope.get? "all" = none ∧
      choiceBeforePairFragment.styles pairScope =
        .ok [(1, ⟨[⟨"storage.type"⟩], []⟩), (2, ⟨[⟨"storage.type"⟩], []⟩)] ∧
      ∃ g moved, ((choiceBeforePair.highlightedAs "all" ⟨"keyword"⟩).run 7).1.compile = .ok g ∧
        g.styles pairScope = .ok moved ∧
        GroupStyle.elide true g.text moved =
          ("(?:a|[)])(c)(c)", [(0, ⟨[⟨"keyword"⟩], []⟩), (1, ⟨[⟨"storage.type"⟩], []⟩),
            (2, ⟨[⟨"storage.type"⟩], []⟩)]) := by
  have compiled : choiceBeforePair.compile = .ok choiceBeforePairFragment := by rfl
  have contained : choiceBeforePair.SelfContained := by decide
  have plain : Regex.hasBackreference choiceBeforePairFragment.text = false := by decide
  have fresh : ∀ serial ∈ choiceBeforePair.serials, serial < 7 := by decide
  have found : choiceBeforePairFragment.styles pairScope =
      .ok [(1, ⟨[⟨"storage.type"⟩], []⟩), (2, ⟨[⟨"storage.type"⟩], []⟩)] := by rfl
  exact ⟨compiled, contained, plain, fresh, by rfl, by rfl, found,
    elide_highlightedAs compiled contained plain fresh "all" ⟨"keyword"⟩ (by rfl) (by rfl) found⟩

end TextMate
