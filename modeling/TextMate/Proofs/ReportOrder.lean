import TextMate.Proofs.Failures

/-!
# The order of failures

The survey goes through a grammar as the compiler does: the end of a span before its beginning, the
groups of a regex in the order of their numbers, and the styles of a mode before its list. So of two
places none of which is inside the other, the one that comes first in this order is listed first
(`failures_inOrder`).
-/

set_option autoImplicit false

namespace TextMate

/-- Of two steps from the same rule, or from the grammar itself, the first is taken before the
other. -/
inductive Step.Before : Step → Step → Prop where
  | index {i j : Nat} : i < j → Before (.pattern i) (.pattern j)
  | group {field : RegexField} {k l : Nat} : k < l → Before (.capture field k) (.capture field l)
  | closing (k l : Nat) : Before (.capture .closing k) (.capture .opening l)
  | style (field : RegexField) (k i : Nat) : Before (.capture field k) (.pattern i)
  | listed (i : Nat) (name : String) : Before (.pattern i) (.repository name)
  | name {m n : String} : m < n → Before (.repository m) (.repository n)

/-- The first place is met before the second, or one is inside the other. -/
inductive Path.Precedes (p q : Path) : Prop where
  | outside : p <+: q → Precedes p q
  | inside : q <+: p → Precedes p q
  | before {common rest rest' : Path} {s t : Step} : p = common ++ s :: rest →
      q = common ++ t :: rest' → s.Before t → Precedes p q

/-- The order in which failures are met. -/
def Failure.InOrder (a b : Failure) : Prop :=
  a.path.Precedes b.path

/-- The failure is that of the rule at `path`, or it is further in by the step `s`. -/
def Failure.Under (failure : Failure) (path : Path) (s : Step) : Prop :=
  failure.path = path ∨ ∃ rest, failure.path = path ++ s :: rest

section Order

variable {mode : Mode} {path : Path} {a b : Failure} {s t : Step}

theorem Failure.inOrder_of_own (ha : a.path = path) (hb : b.Under path s) : a.InOrder b := by
  refine .outside ?_
  rw [ha]
  rcases hb with own | ⟨rest, inside⟩
  · exact ⟨[], by rw [own, List.append_nil]⟩
  · rw [inside]
    exact List.prefix_append _ _

theorem Failure.inOrder_of_before (ha : a.Under path s) (hb : b.Under path t) (h : s.Before t) :
    a.InOrder b := by
  rcases ha with own | ⟨rest, inside⟩
  · exact inOrder_of_own own hb
  · rcases hb with own | ⟨rest', inside'⟩
    · refine .inside ?_
      rw [own, inside]
      exact List.prefix_append _ _
    · exact .before inside inside' h

/-- The failures of a mode are listed in order wherever it stands. -/
def Mode.InOrderAnywhere (mode : Mode) : Prop :=
  ∀ path, (mode.failures path).Pairwise Failure.InOrder

/-- A failure in a mode one step further in is under that step. -/
theorem under_of_mem_failures (h : a ∈ mode.failures (path ++ [s])) : a.Under path s := by
  obtain ⟨place, _, -, at', -⟩ := Mode.mem_failures h
  refine .inr ⟨place, ?_⟩
  rw [at', List.append_assoc]
  rfl

theorem under_of_mem_inList {modes : List Mode}
    (h : a ∈ Survey.inList (modes.map Mode.failures) path) : ∃ i, a.Under path (.pattern i) := by
  obtain ⟨i, n, -, mem⟩ := Survey.mem_inList_map.1 h
  exact ⟨i, under_of_mem_failures mem⟩

theorem inOrder_inListFrom {modes : List Mode} (h : ∀ n ∈ modes, n.InOrderAnywhere) (i : Nat) :
    (Survey.inListFrom i (modes.map Mode.failures) path).Pairwise Failure.InOrder := by
  induction modes generalizing i with
  | nil => exact .nil
  | cons n modes ih =>
    obtain ⟨head, tail⟩ := List.forall_mem_cons.1 h
    refine List.pairwise_append.2 ⟨head _, ih tail (i + 1), ?_⟩
    intro a ha b hb
    obtain ⟨k, _, listed, mem⟩ := Survey.mem_inListFrom.1 hb
    rw [List.getElem?_map] at listed
    obtain ⟨n', -, rfl⟩ := Option.map_eq_some_iff.1 listed
    exact Failure.inOrder_of_before (under_of_mem_failures ha) (under_of_mem_failures mem)
      (.index (by omega))

theorem inOrder_inList {modes : List Mode} (h : ∀ n ∈ modes, n.InOrderAnywhere) :
    (Survey.inList (modes.map Mode.failures) path).Pairwise Failure.InOrder :=
  inOrder_inListFrom h 0

theorem path_of_mem_ofScopes {field : Field} {scopes : List Scope}
    (h : a ∈ Survey.ofScopes field scopes path) : a.path = path := by
  obtain ⟨rfl, -⟩ := Survey.mem_ofScopes.1 h
  rfl

/-- The failures of a rule itself are in order with each other, and with those further in. -/
theorem inOrder_ofScopes_append (field : Field) (scopes : List Scope) {fs : List Failure}
    (h : fs.Pairwise Failure.InOrder) (under : ∀ b ∈ fs, ∃ s, b.Under path s) :
    (Survey.ofScopes field scopes path ++ fs).Pairwise Failure.InOrder := by
  refine List.pairwise_append.2 ⟨List.pairwise_of_forall_mem_list ?_, h, ?_⟩
  · intro a ha b hb
    exact Failure.inOrder_of_own (s := .pattern 0) (path_of_mem_ofScopes ha)
      (.inl (path_of_mem_ofScopes hb))
  · intro a ha b hb
    obtain ⟨s, under⟩ := under b hb
    exact Failure.inOrder_of_own (path_of_mem_ofScopes ha) under

/-- Failures in the list of something one step further in are under that step. -/
theorem under_of_mem_inList_under {modes : List Mode}
    (h : a ∈ Survey.inList (modes.map Mode.failures) (path ++ [s])) : a.Under path s := by
  obtain ⟨i, own | ⟨rest, further⟩⟩ := under_of_mem_inList h
  · exact .inr ⟨[], own⟩
  · refine .inr ⟨.pattern i :: rest, ?_⟩
    rw [further, List.append_assoc]
    rfl

theorem under_of_mem_ofStyle {field : RegexField} {group : Nat} {style : GroupStyle Mode}
    (h : a ∈ Survey.ofStyle field group (style.map Mode.failures) path) :
    a.Under path (.capture field group) := by
  rcases List.mem_append.1 h with own | inside
  · exact .inl (path_of_mem_ofScopes own)
  · exact under_of_mem_inList_under inside

theorem inOrder_ofStyle {field : RegexField} {group : Nat} {style : GroupStyle Mode}
    (h : ∀ n ∈ style.patterns, n.InOrderAnywhere) :
    (Survey.ofStyle field group (style.map Mode.failures) path).Pairwise Failure.InOrder :=
  inOrder_ofScopes_append _ _ (inOrder_inList h) fun _ mem => ⟨_, under_of_mem_inList_under mem⟩

theorem under_of_mem_ofRegex {field : RegexField} {x : Except Fault (Emission Mode)}
    (h : a ∈ Survey.ofRegex field (x.map (Emission.map Mode.failures)) path) :
    ∃ group, a.Under path (.capture field group) := by
  cases x with
  | error fault =>
    cases List.mem_singleton.1 h
    exact ⟨0, .inl rfl⟩
  | ok e =>
    obtain ⟨_, mapped, mem⟩ := List.mem_flatMap.1 h
    obtain ⟨⟨group, style⟩, -, rfl⟩ := List.mem_map.1 mapped
    exact ⟨group, under_of_mem_ofStyle mem⟩

theorem inOrder_ofRegex {field : RegexField} {elidable : Bool} {pattern : Pattern}
    {declared : List (String × Declaration Mode)}
    (h : ∀ e ∈ declared, ∀ n ∈ e.2.patterns, n.InOrderAnywhere) :
    (Survey.ofRegex field ((emitted elidable pattern declared).map (Emission.map Mode.failures))
      path).Pairwise Failure.InOrder := by
  cases result : emitted elidable pattern declared with
  | error fault => exact List.pairwise_singleton _ _
  | ok e =>
    refine List.pairwise_flatMap.2 ⟨?_, ?_⟩
    · intro _ mapped
      obtain ⟨⟨group, style⟩, styled, rfl⟩ := List.mem_map.1 mapped
      refine inOrder_ofStyle fun n rule => ?_
      obtain ⟨name, spec, entry, rule⟩ := entry_of_mem_patterns result styled rule
      exact h _ (NameMap.mem_of_get?_ofList (NameMap.mem_entries_iff.1 entry)) n rule
    · refine List.pairwise_map.2 ((emitted_increasing result).imp ?_)
      intro s t lt a ha b hb
      exact Failure.inOrder_of_before (under_of_mem_ofStyle ha) (under_of_mem_ofStyle hb) (.group lt)

/-- Failures that come after those of the regexes of a rule: they are of its own scopes or in its
list. -/
structure AfterRegexes (path : Path) (fs : List Failure) : Prop where
  inOrder : fs.Pairwise Failure.InOrder
  under : ∀ b ∈ fs, ∃ i, b.Under path (.pattern i)

theorem afterRegexes_inList {modes : List Mode} (h : ∀ n ∈ modes, n.InOrderAnywhere) :
    AfterRegexes path (Survey.inList (modes.map Mode.failures) path) :=
  ⟨inOrder_inList h, fun _ mem => under_of_mem_inList mem⟩

theorem AfterRegexes.ofScopes_append {fs : List Failure} (h : AfterRegexes path fs) (field : Field)
    (scopes : List Scope) : AfterRegexes path (Survey.ofScopes field scopes path ++ fs) where
  inOrder := by
    refine inOrder_ofScopes_append field scopes h.inOrder fun b hb => ?_
    obtain ⟨i, under⟩ := h.under b hb
    exact ⟨_, under⟩
  under b hb := by
    rcases List.mem_append.1 hb with own | later
    · exact ⟨0, .inl (path_of_mem_ofScopes own)⟩
    · exact h.under b later

/-- Whatever comes after the regexes comes after each group. -/
theorem AfterRegexes.after {fs : List Failure} (h : AfterRegexes path fs) (field : RegexField)
    (group : Nat) : ∀ b ∈ fs, ∃ t, b.Under path t ∧ (Step.capture field group).Before t := by
  intro b hb
  obtain ⟨i, under⟩ := h.under b hb
  exact ⟨_, under, .style field group i⟩

theorem inOrder_ofRegex_append {field : RegexField} {elidable : Bool} {pattern : Pattern}
    {declared : List (String × Declaration Mode)} {fs : List Failure}
    (h : ∀ e ∈ declared, ∀ n ∈ e.2.patterns, n.InOrderAnywhere)
    (rest : fs.Pairwise Failure.InOrder)
    (later : ∀ group, ∀ b ∈ fs, ∃ t, b.Under path t ∧ (Step.capture field group).Before t) :
    (Survey.ofRegex field ((emitted elidable pattern declared).map (Emission.map Mode.failures))
      path ++ fs).Pairwise Failure.InOrder := by
  refine List.pairwise_append.2 ⟨inOrder_ofRegex h, rest, ?_⟩
  intro a ha b hb
  obtain ⟨group, under⟩ := under_of_mem_ofRegex ha
  obtain ⟨t, under', before⟩ := later group b hb
  exact Failure.inOrder_of_before under under' before

/-- The failures of a mode are listed in the order of their places. -/
theorem failures_inOrder (mode : Mode) : mode.InOrderAnywhere := by
  induction mode using Mode.ind with
  | step mode inList inDeclared =>
    intro path
    cases mode with
    | single pattern scope captures contains =>
      have declared := inDeclared _ List.mem_cons_self
      have listed : AfterRegexes path _ := afterRegexes_inList inList
      have rest := listed.ofScopes_append .name scope.toList
      rw [Mode.failures_single]
      exact inOrder_ofRegex_append declared rest.inOrder (rest.after .whole)
    | span opening closing scope contentScope openingCaptures closingCaptures contains closingLast =>
      have opened := inDeclared _ List.mem_cons_self
      have closed := inDeclared _ (List.mem_cons_of_mem _ List.mem_cons_self)
      have listed : AfterRegexes path _ := afterRegexes_inList inList
      have content := listed.ofScopes_append .contentName contentScope.toList
      have rest := content.ofScopes_append .name scope.toList
      rw [Mode.failures_span]
      refine inOrder_ofRegex_append closed ?_ ?_
      · exact inOrder_ofRegex_append opened rest.inOrder (rest.after .opening)
      · intro group b hb
        rcases List.mem_append.1 hb with first | later
        · obtain ⟨group', under⟩ := under_of_mem_ofRegex first
          exact ⟨_, under, .closing group group'⟩
        · exact rest.after .closing group b later
    | group modes =>
      rw [Mode.failures_group]
      exact inOrder_inList inList
    | includes target => exact .nil

end Order

end TextMate
