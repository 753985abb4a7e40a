import TextMate.Proofs.Names

/-!
# Merging tags and declarations

The styles of a regex can also be collected step by step: first the scopes of each highlighted capture
go to its groups, then what is declared for each name goes to the groups that the name finds, where
declared rules take the place of rules that are there. No group is met twice in either pass, so nothing
is lost and the order of the captures does not matter: what is collected are the styles of the
fragment (`merged_eq_lookup`).
-/

set_option autoImplicit false

namespace TextMate

variable {α β : Type}

namespace GroupStyle

/-- A style that says nothing. -/
def bare : GroupStyle α := ⟨[], []⟩

/-- The style with one scope more, unless it has that scope already. -/
def addScope (style : GroupStyle α) (scope : Scope) : GroupStyle α :=
  if scope ∈ style.scopes then style else { style with scopes := style.scopes ++ [scope] }

def addScopes (scopes : List Scope) (style : GroupStyle α) : GroupStyle α :=
  scopes.foldl addScope style

/-- Adds the declared scope. Declared rules replace those of the style. -/
def declare : Declaration α → GroupStyle α → GroupStyle α
  | .scope scope, style => style.addScope scope
  | .rule scope patterns, style => { addScopes scope.toList style with patterns := patterns }

theorem addScope_eraseDups (scopes : List Scope) (patterns : List α) (scope : Scope) :
    addScope ⟨scopes.eraseDups, patterns⟩ scope = ⟨(scopes ++ [scope]).eraseDups, patterns⟩ := by
  rw [addScope, List.eraseDups_append]
  by_cases mem : scope ∈ scopes
  · simp [List.removeAll, mem]
  · simp [List.removeAll, mem, List.eraseDups_cons]

/-- Adding scopes one by one keeps the first occurrence of each. -/
theorem addScopes_eraseDups (scopes more : List Scope) (patterns : List α) :
    addScopes more ⟨scopes.eraseDups, patterns⟩ = ⟨(scopes ++ more).eraseDups, patterns⟩ := by
  induction more generalizing scopes with
  | nil => simp [addScopes]
  | cons scope more ih =>
    have rest := ih (scopes ++ [scope])
    rw [← addScope_eraseDups, List.append_assoc] at rest
    exact rest

theorem addScopes_bare (scopes : List Scope) :
    addScopes scopes (bare : GroupStyle α) = ⟨scopes.eraseDups, []⟩ :=
  addScopes_eraseDups [] scopes []

/-- What is declared comes after the scopes that are there. -/
theorem declare_eraseDups (spec : Declaration α) (scopes : List Scope) :
    declare spec ⟨scopes.eraseDups, []⟩ =
      ⟨(scopes ++ spec.scope?.toList).eraseDups, spec.patterns⟩ := by
  cases spec with
  | scope scope => exact addScope_eraseDups scopes [] scope
  | rule scope patterns =>
    rw [declare, addScopes_eraseDups]
    rfl

end GroupStyle

/-- Styles by the numbers of their groups. -/
abbrev StyleMap (α : Type) := Nat → Option (GroupStyle α)

namespace StyleMap

/-- Changes the style of the group `n`, which is bare if it has none. -/
def change (m : StyleMap α) (g : GroupStyle α → GroupStyle α) (n : Nat) : StyleMap α :=
  fun k => if k = n then some (g ((m n).getD .bare)) else m k

/-- Changes the styles of several groups. -/
def changeAll (m : StyleMap α) (g : GroupStyle α → GroupStyle α) (groups : List Nat) : StyleMap α :=
  groups.foldl (fun m n => m.change g n) m

theorem changeAll_of_not_mem {m : StyleMap α} {g : GroupStyle α → GroupStyle α} {groups : List Nat}
    {k : Nat} (h : k ∉ groups) : m.changeAll g groups k = m k := by
  induction groups generalizing m with
  | nil => rfl
  | cons n groups ih =>
    obtain ⟨ne, later⟩ := not_or.1 (mt List.mem_cons.2 h)
    exact (ih later).trans (if_neg ne)

theorem changeAll_of_mem {m : StyleMap α} {g : GroupStyle α → GroupStyle α} {groups : List Nat}
    {k : Nat} (nodup : groups.Nodup) (h : k ∈ groups) :
    m.changeAll g groups k = some (g ((m k).getD .bare)) := by
  induction groups generalizing m with
  | nil => cases h
  | cons n groups ih =>
    obtain ⟨notLater, nodup⟩ := List.nodup_cons.1 nodup
    rcases List.mem_cons.1 h with rfl | later
    · exact (changeAll_of_not_mem notLater).trans (if_pos rfl)
    · have ne : k ≠ n := by
        rintro rfl
        exact notLater later
      exact (ih nodup later).trans (congrArg (fun s => some (g (Option.getD s .bare))) (if_neg ne))

section Pass

variable {xs : List β} {groups : β → List Nat} {g : β → GroupStyle α → GroupStyle α}
  {m : StyleMap α} {k : Nat}

/-- Each of `xs` changes the styles of its own groups. -/
def pass (m : StyleMap α) (groups : β → List Nat) (g : β → GroupStyle α → GroupStyle α)
    (xs : List β) : StyleMap α :=
  xs.foldl (fun m x => m.changeAll (g x) (groups x)) m

/-- A group that belongs to none keeps its style. -/
theorem pass_of_unowned (h : ∀ x ∈ xs, k ∉ groups x) : m.pass groups g xs k = m k := by
  induction xs generalizing m with
  | nil => rfl
  | cons x xs ih =>
    obtain ⟨first, later⟩ := List.forall_mem_cons.1 h
    exact (ih later).trans (changeAll_of_not_mem first)

/-- A group that belongs to one only is changed by that one. -/
theorem pass_of_owner (distinct : xs.Nodup) (nodup : ∀ x ∈ xs, (groups x).Nodup) {x : β} (mem : x ∈ xs)
    (own : k ∈ groups x) (only : ∀ y ∈ xs, k ∈ groups y → y = x) :
    m.pass groups g xs k = some (g x ((m k).getD .bare)) := by
  induction xs generalizing m with
  | nil => cases mem
  | cons y xs ih =>
    obtain ⟨notLater, distinct⟩ := List.nodup_cons.1 distinct
    obtain ⟨first, nodup⟩ := List.forall_mem_cons.1 nodup
    obtain ⟨onlyFirst, onlyLater⟩ := List.forall_mem_cons.1 only
    rcases List.mem_cons.1 mem with rfl | later
    · have unowned : ∀ z ∈ xs, k ∉ groups z := by
        intro y hy owned
        have same := onlyLater y hy owned
        exact notLater (same ▸ hy)
      exact (pass_of_unowned unowned).trans (changeAll_of_mem first own)
    · have other : k ∉ groups y := by
        intro owned
        exact notLater (onlyFirst owned ▸ later)
      have before : m.changeAll (g y) (groups y) k = m k := changeAll_of_not_mem other
      exact (ih distinct nodup later onlyLater).trans
        (congrArg (fun s => some (g x (Option.getD s .bare))) before)

end Pass

end StyleMap

namespace Fragment

variable {p : Pattern} {f : Fragment} {declared : NameMap (Declaration α)}

/-- The groups that a declaration for `name` is for. -/
def groupsFound (f : Fragment) (name : String) : List Nat :=
  if name = wholeMatch then [0] else f.groupsNamed name

/-- The styles that are collected when the highlighted captures come in the order of `ids`. -/
def merged (f : Fragment) (ids : List CaptureId) (declared : NameMap (Declaration α)) :
    StyleMap α :=
  StyleMap.pass (.pass (fun _ => none) f.groupsOf (fun id => .addScopes (f.tagsOf id)) ids)
    (fun e => f.groupsFound e.1) (fun e => .declare e.2) declared.entries

/-- No group number is below 1. -/
theorem zero_not_mem_groupsOf (id : CaptureId) : 0 ∉ f.groupsOf id := by
  intro mem
  exact absurd (mem_groupsOf.1 mem).1 (by decide)

theorem nodup_groupsOf (f : Fragment) (id : CaptureId) : (f.groupsOf id).Nodup :=
  (placesFrom_pairwise id 1 f.groups).imp Nat.ne_of_lt

/-- No group belongs to two captures. -/
theorem groupsOf_unique {id id' : CaptureId} {n : Nat} (h : n ∈ f.groupsOf id)
    (h' : n ∈ f.groupsOf id') : id' = id := by
  have same := (mem_groupsOf.1 h').2.symm.trans (mem_groupsOf.1 h).2
  simpa using same

theorem nodup_groupsFound (f : Fragment) (name : String) : (f.groupsFound name).Nodup := by
  unfold groupsFound groupsNamed
  split
  · exact List.pairwise_singleton _ 0
  · split
    · exact List.nodup_nil
    · exact nodup_groupsOf f _

theorem nodup_entries (m : NameMap α) : m.entries.Nodup :=
  m.pairwise_ne.imp fun ne eq => ne (congrArg Prod.fst eq)

/-- A capture without a highlight has no scopes. -/
theorem tagsOf_eq_nil {id : CaptureId} (h : id ∉ f.highlighted) : f.tagsOf id = [] := by
  have none : f.highlights.filter (fun h => h.1 = id) = [] := by
    rw [List.filter_eq_nil_iff]
    intro tag mem own
    rw [highlighted, List.mem_eraseDups] at h
    exact h (of_decide_eq_true own ▸ List.mem_map_of_mem mem)
  rw [tagsOf, none]
  rfl

theorem mem_entries_of_declarationFor? {id : CaptureId} {spec : Declaration α}
    (h : declarationFor? declared id = some spec) :
    ∃ name, id.name? = some name ∧ name ≠ wholeMatch ∧ (name, spec) ∈ declared.entries := by
  unfold declarationFor? at h
  split at h
  · cases h
  · next name named =>
    split at h
    · cases h
    · next other => exact ⟨name, named, other, NameMap.mem_entries_iff.2 h⟩

theorem declarationFor?_of_mem_entries {id : CaptureId} {name : String} {spec : Declaration α}
    (named : id.name? = some name) (other : name ≠ wholeMatch) (h : (name, spec) ∈ declared.entries) :
    declarationFor? declared id = some spec := by
  simp only [declarationFor?, named, if_neg other]
  exact NameMap.mem_entries_iff.1 h

end Fragment

section Merged

variable {p : Pattern} {f : Fragment} {declared : NameMap (Declaration α)}

/-- The whole match is found by its own name only. -/
theorem zero_mem_groupsFound_iff {name : String} : 0 ∈ f.groupsFound name ↔ name = wholeMatch := by
  unfold Fragment.groupsFound Fragment.groupsNamed
  split
  · next whole => simp [whole]
  · next other =>
    refine iff_of_false ?_ other
    split
    · exact List.not_mem_nil
    · exact Fragment.zero_not_mem_groupsOf _

/-- What a name is for: the whole match, or the groups of the capture that is called so. -/
theorem mem_groupsFound_iff (h : Builds p f) {name : String} (finds : p.Finds f.text name) {n : Nat} :
    n ∈ f.groupsFound name ↔ (name = wholeMatch ∧ n = 0) ∨
      (name ≠ wholeMatch ∧ ∃ id, n ∈ f.groupsOf id ∧ id.name? = some name) := by
  unfold Fragment.groupsFound
  split
  · next whole => simp [whole]
  · next other => simp [other, mem_groupsNamed_iff h other finds]

/-- A name is for a group if the capture that the group was opened for is called so. -/
theorem mem_groupsFound_of_own (h : Builds p f) {name : String} (finds : p.Finds f.text name)
    {n : Nat} {id : CaptureId} (own : n ∈ f.groupsOf id) :
    n ∈ f.groupsFound name ↔ name ≠ wholeMatch ∧ id.name? = some name := by
  rw [mem_groupsFound_iff h finds]
  constructor
  · rintro (⟨-, rfl⟩ | ⟨other, id', own', named⟩)
    · exact absurd own (Fragment.zero_not_mem_groupsOf id)
    · rw [Fragment.groupsOf_unique own own'] at named
      exact ⟨other, named⟩
  · rintro ⟨other, named⟩
    exact .inr ⟨other, id, own, named⟩

variable {ids : List CaptureId}

/-- The style of a group after the highlighted captures have been met. -/
theorem pass_tags {id : CaptureId} {n : Nat} (distinct : ids.Nodup)
    (own : n ∈ f.groupsOf id) :
    StyleMap.pass (α := α) (fun _ => none) f.groupsOf (fun id => .addScopes (f.tagsOf id)) ids n =
      if id ∈ ids then some ⟨(f.tagsOf id).eraseDups, []⟩ else none := by
  split
  · next mem =>
    rw [StyleMap.pass_of_owner distinct (fun x _ => f.nodup_groupsOf x) mem own
      fun y _ owned => Fragment.groupsOf_unique own owned]
    exact congrArg some (GroupStyle.addScopes_bare _)
  · next other =>
    refine StyleMap.pass_of_unowned fun x mem owned => other ?_
    rwa [← Fragment.groupsOf_unique own owned]

/-- What is collected for a group is the style of the capture that it was opened for. -/
theorem merged_group (h : Builds p f) (distinct : ids.Nodup) (all : ∀ id, id ∈ ids ↔ p.isTagged id)
    (found : ∀ e ∈ declared.entries, p.Finds f.text e.1) {id : CaptureId} {n : Nat}
    (own : n ∈ f.groupsOf id) : f.merged ids declared n = f.styleOf? declared id := by
  have member : id ∈ ids ↔ id ∈ f.highlighted := by rw [all, mem_highlighted_of_builds h]
  unfold Fragment.merged Fragment.styleOf?
  cases declaration : Fragment.declarationFor? declared id with
  | none =>
    have unowned : ∀ e ∈ declared.entries, n ∉ f.groupsFound e.1 := by
      intro e mem owned
      obtain ⟨other, named⟩ := (mem_groupsFound_of_own h (found e mem) own).1 owned
      rw [Fragment.declarationFor?_of_mem_entries named other mem] at declaration
      cases declaration
    rw [StyleMap.pass_of_unowned unowned, pass_tags distinct own]
    simp [member, Fragment.declaredScope?, Fragment.declaredPatterns, declaration]
  | some spec =>
    obtain ⟨name, named, other, mem⟩ := Fragment.mem_entries_of_declarationFor? declaration
    have owned : n ∈ f.groupsFound name :=
      (mem_groupsFound_of_own h (found _ mem) own).2 ⟨other, named⟩
    have only : ∀ e ∈ declared.entries, n ∈ f.groupsFound e.1 → e = (name, spec) := by
      rintro ⟨name', spec'⟩ mem' owned'
      obtain ⟨-, named'⟩ := (mem_groupsFound_of_own h (found _ mem') own).1 owned'
      obtain rfl : name = name' := Option.some.inj (named.symm.trans named')
      have same := (NameMap.mem_entries_iff.1 mem').symm.trans (NameMap.mem_entries_iff.1 mem)
      rw [Option.some.inj same]
    have before : ((if id ∈ ids then some (GroupStyle.mk (f.tagsOf id).eraseDups []) else none).getD
        .bare : GroupStyle α) = ⟨(f.tagsOf id).eraseDups, []⟩ := by
      split
      · rfl
      · next untagged =>
        rw [Fragment.tagsOf_eq_nil (mt member.2 untagged)]
        rfl
    rw [StyleMap.pass_of_owner (Fragment.nodup_entries declared)
      (fun e _ => f.nodup_groupsFound e.1) mem owned only, pass_tags distinct own, before,
      GroupStyle.declare_eraseDups]
    simp [Fragment.declaredScope?, Fragment.declaredPatterns, declaration]

/-- A group that was opened for no capture has no style. -/
theorem merged_unlabelled (h : Builds p f) (found : ∀ e ∈ declared.entries, p.Finds f.text e.1)
    {n : Nat} (pos : n ≠ 0) (nobody : ∀ id, n ∉ f.groupsOf id) :
    f.merged ids declared n = none := by
  have unowned : ∀ e ∈ declared.entries, n ∉ f.groupsFound e.1 := by
    intro e mem owned
    rcases (mem_groupsFound_iff h (found e mem)).1 owned with ⟨-, zero⟩ | ⟨-, id, own, -⟩
    · exact pos zero
    · exact nobody id own
  exact (StyleMap.pass_of_unowned unowned).trans (StyleMap.pass_of_unowned fun id _ => nobody id)

/-- The whole match has what is declared for it. -/
theorem merged_whole : f.merged ids declared 0 = Fragment.wholeStyle? declared := by
  have untagged : StyleMap.pass (α := α) (fun _ => none) f.groupsOf
      (fun id => .addScopes (f.tagsOf id)) ids 0 = none :=
    StyleMap.pass_of_unowned fun id _ => Fragment.zero_not_mem_groupsOf id
  unfold Fragment.merged Fragment.wholeStyle?
  cases declaration : declared.get? wholeMatch with
  | none =>
    refine (StyleMap.pass_of_unowned ?_).trans untagged
    intro e mem owned
    rw [zero_mem_groupsFound_iff] at owned
    have entry : declared.get? e.1 = some e.2 := NameMap.mem_entries_iff.1 mem
    rw [owned, declaration] at entry
    cases entry
  | some spec =>
    have only : ∀ e ∈ declared.entries, 0 ∈ f.groupsFound e.1 → e = (wholeMatch, spec) := by
      rintro ⟨name, spec'⟩ mem owned
      obtain rfl := zero_mem_groupsFound_iff.1 owned
      have same := (NameMap.mem_entries_iff.1 mem).symm.trans declaration
      rw [Option.some.inj same]
    rw [StyleMap.pass_of_owner (Fragment.nodup_entries declared)
      (fun e _ => f.nodup_groupsFound e.1) (NameMap.mem_entries_iff.2 declaration)
      (zero_mem_groupsFound_iff.2 rfl) only, untagged]
    cases spec with
    | scope scope => rfl
    | rule scope patterns => cases scope <;> rfl

/-- The styles of a compiled pattern are what merging collects, whatever the order in which the
highlighted captures come. -/
theorem merged_eq_lookup (h : Builds p f) {styles : List (Nat × GroupStyle α)}
    (found : f.styles declared = .ok styles) (distinct : ids.Nodup)
    (all : ∀ id, id ∈ ids ↔ p.isTagged id) (n : Nat) :
    f.merged ids declared n = styles.lookup n := by
  have finds : ∀ e ∈ declared.entries, p.Finds f.text e.1 := fun e mem =>
    (checkName_eq_ok_iff h).1 (((styles_eq_ok_iff h).1 found).1 e mem)
  have listed (style : GroupStyle α) : styles.lookup n = some style ↔ (n, style) ∈ styles :=
    ⟨NameMap.mem_of_lookup,
      NameMap.lookup_of_mem ((Fragment.styles_increasing found).imp Nat.ne_of_lt)⟩
  refine Option.ext fun style => ?_
  rw [listed, Fragment.mem_styles found]
  by_cases whole : n = 0
  · subst whole
    rw [merged_whole]
    simp
  have pos : 1 ≤ n := Nat.one_le_iff_ne_zero.2 whole
  by_cases labelled : ∃ id, n ∈ f.groupsOf id
  · obtain ⟨id, own⟩ := labelled
    rw [merged_group h distinct all finds own]
    have label := (Fragment.mem_groupsOf.1 own).2
    simp [whole, pos, label]
  · have nobody : ∀ id, n ∉ f.groupsOf id := fun id own => labelled ⟨id, own⟩
    rw [merged_unlabelled h finds whole nobody]
    refine iff_of_false nofun ?_
    rintro (⟨zero, -⟩ | ⟨-, id, label, -⟩)
    · exact whole zero
    · exact nobody id (Fragment.mem_groupsOf.2 ⟨pos, label⟩)

end Merged

end TextMate
