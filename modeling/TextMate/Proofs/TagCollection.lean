import Mathlib.Data.List.Induction
import TextMate.Proofs.Identities

/-!
# Tags follow their capture

A tag belongs to the capture it is put on, through any number of tags between them, or else to a group of
its own. Reading the nodes of a pattern from the inside out gives all tags in their order. Collecting
them node by node, with repeated scopes left out at every step, gives the same (`collected_eq`). Every
capture that is tagged has a group.
-/

set_option autoImplicit false

namespace TextMate

namespace Pattern

/-- The pattern and all that is inside it: inner nodes before outer ones and left ones before right
ones. -/
def nodes : Pattern → List Pattern
  | leaf text => [leaf text]
  | sequence p q => p.nodes ++ q.nodes ++ [sequence p q]
  | alternation p q => p.nodes ++ q.nodes ++ [alternation p q]
  | repetition p min max => p.nodes ++ [repetition p min max]
  | capture p name serial => p.nodes ++ [capture p name serial]
  | look kind p => p.nodes ++ [look kind p]
  | tag p scopes serial => p.nodes ++ [tag p scopes serial]

/-- The capture that a tag on the pattern belongs to, where `serial` is the number of the tag. -/
def tagTarget : Pattern → Nat → CaptureId
  | capture _ name serial, _ => ⟨serial, some name⟩
  | tag p _ serial, _ => p.tagTarget serial
  | _, serial => ⟨serial, none⟩

/-- What a node says about a capture, if it is a tag. -/
def tagging? : Pattern → Option (CaptureId × List Scope)
  | tag p scopes serial => some (p.tagTarget serial, scopes)
  | _ => none

theorem tagTarget_eq (p : Pattern) (serial : Nat) :
    p.tagTarget serial = p.target?.getD ⟨serial, none⟩ := by
  induction p generalizing serial with
  | tag p scopes inner ih => exact ih inner
  | _ => rfl

/-- The highlights of a pattern are what its nodes say, in their order. -/
theorem highlights_eq_nodes (p : Pattern) : p.highlights = p.nodes.filterMap tagging? := by
  induction p with
  | leaf text => rfl
  | sequence p q ihp ihq | alternation p q ihp ihq =>
    rw [highlights, nodes, List.filterMap_append, List.filterMap_append, ← ihp, ← ihq]
    exact (List.append_nil _).symm
  | repetition p _ _ ih | capture p _ _ ih | look _ p ih =>
    rw [highlights, nodes, List.filterMap_append, ← ih]
    exact (List.append_nil _).symm
  | tag p scopes serial ih =>
    rw [highlights, nodes, List.filterMap_append, ← ih, ← tagTarget_eq]
    rfl

/-- A capture is tagged if some tag in the pattern belongs to it. -/
theorem isTagged_iff {p : Pattern} {id : CaptureId} :
    p.isTagged id ↔ ∃ q scopes serial, tag q scopes serial ∈ p.nodes ∧ q.tagTarget serial = id := by
  rw [isTagged, highlights_eq_nodes, List.mem_map]
  constructor
  · rintro ⟨⟨_, scopes⟩, mem, rfl⟩
    obtain ⟨node, inside, found⟩ := List.mem_filterMap.1 mem
    cases node with
    | tag q _ serial =>
      cases found
      exact ⟨q, scopes, serial, inside, rfl⟩
    | _ => cases found
  · rintro ⟨q, scopes, serial, inside, rfl⟩
    exact ⟨_, List.mem_filterMap.2 ⟨_, inside, rfl⟩, rfl⟩

end Pattern

/-- Scopes by the captures they are put on. -/
abbrev TagTable := CaptureId → Option (List Scope)

/-- Puts the scopes that are new behind the old ones. -/
def addNew (old more : List Scope) : List Scope :=
  more.foldl (fun scopes scope => if scope ∈ scopes then scopes else scopes ++ [scope]) old

namespace TagTable

def empty : TagTable := fun _ => none

/-- Adds scopes to those of one capture. -/
def add (table : TagTable) (id : CaptureId) (scopes : List Scope) : TagTable := fun k =>
  if k = id then some (addNew ((table id).getD []) scopes) else table k

/-- Adds all that is in another table. -/
def merge (table other : TagTable) : TagTable := fun k =>
  match other k with
  | none => table k
  | some scopes => some (addNew ((table k).getD []) scopes)

end TagTable

/-- The tags of a pattern as they are collected: a node takes over what is collected for its parts. -/
def Pattern.collected : Pattern → TagTable
  | leaf _ => .empty
  | sequence p q | alternation p q => p.collected.merge q.collected
  | repetition p _ _ | capture p _ _ | look _ p => p.collected
  | tag p scopes serial => p.collected.add (p.tagTarget serial) scopes

theorem eraseDups_concat (scopes : List Scope) (scope : Scope) :
    (scopes ++ [scope]).eraseDups =
      if scope ∈ scopes then scopes.eraseDups else scopes.eraseDups ++ [scope] := by
  rw [List.eraseDups_append]
  split
  · next mem => simp [List.removeAll, mem]
  · next new => simp [List.removeAll, new, List.eraseDups_cons]

/-- Adding scopes one by one keeps the first occurrence of each. -/
theorem addNew_eraseDups (scopes more : List Scope) :
    addNew scopes.eraseDups more = (scopes ++ more).eraseDups := by
  induction more generalizing scopes with
  | nil => rw [List.append_nil, addNew, List.foldl_nil]
  | cons scope more ih =>
    have step : addNew scopes.eraseDups (scope :: more) =
        addNew (scopes ++ [scope]).eraseDups more := by
      simp only [addNew, List.foldl_cons, List.mem_eraseDups, eraseDups_concat]
    rw [step, ih, List.append_assoc]
    rfl

/-- Scopes that were repeated among those that are added make no difference. -/
theorem eraseDups_append_eraseDups (scopes more : List Scope) :
    (scopes ++ more.eraseDups).eraseDups = (scopes ++ more).eraseDups := by
  induction more using List.reverseRecOn with
  | nil => rfl
  | append_singleton more scope ih =>
    rw [← List.append_assoc, eraseDups_concat (scopes ++ more), eraseDups_concat more]
    by_cases mem : scope ∈ more
    · rw [if_pos mem, if_pos (List.mem_append_right _ mem), ih]
    · rw [if_neg mem, ← List.append_assoc, eraseDups_concat, ih]
      simp only [List.mem_append, List.mem_eraseDups]

section Tables

variable {tags more : List (CaptureId × List Scope)} {id : CaptureId}

/-- All scopes that `tags` puts on a capture, in their order. -/
def scopesIn (tags : List (CaptureId × List Scope)) (id : CaptureId) : List Scope :=
  (tags.filter fun t => t.1 = id).flatMap Prod.snd

/-- The table of several tags: a capture that is tagged has its scopes, each at its first
occurrence. -/
def TagTable.of (tags : List (CaptureId × List Scope)) : TagTable := fun id =>
  if id ∈ tags.map Prod.fst then some (scopesIn tags id).eraseDups else none

theorem scopesIn_append (id : CaptureId) :
    scopesIn (tags ++ more) id = scopesIn tags id ++ scopesIn more id := by
  rw [scopesIn, List.filter_append, List.flatMap_append]
  rfl

theorem scopesIn_eq_nil (h : id ∉ tags.map Prod.fst) : scopesIn tags id = [] := by
  have none : tags.filter (fun t => t.1 = id) = [] := by
    rw [List.filter_eq_nil_iff]
    intro t mem own
    exact h (of_decide_eq_true own ▸ List.mem_map_of_mem mem)
  rw [scopesIn, none]
  rfl

theorem TagTable.of_eq_some (h : id ∈ tags.map Prod.fst) :
    of tags id = some (scopesIn tags id).eraseDups := if_pos h

theorem TagTable.of_eq_none (h : id ∉ tags.map Prod.fst) : of tags id = none := if_neg h

theorem TagTable.of_getD (tags : List (CaptureId × List Scope)) (id : CaptureId) :
    (of tags id).getD [] = (scopesIn tags id).eraseDups := by
  by_cases mem : id ∈ tags.map Prod.fst
  · rw [of_eq_some mem, Option.getD_some]
  · rw [of_eq_none mem, scopesIn_eq_nil mem]
    rfl

/-- The tables of two lists make the table of both. -/
theorem TagTable.merge_of (tags more : List (CaptureId × List Scope)) :
    merge (of tags) (of more) = of (tags ++ more) := by
  funext id
  have both : id ∈ (tags ++ more).map Prod.fst ↔ id ∈ tags.map Prod.fst ∨ id ∈ more.map Prod.fst := by
    rw [List.map_append, List.mem_append]
  unfold merge
  by_cases mem : id ∈ more.map Prod.fst
  · rw [of_eq_some mem, of_eq_some (both.2 (.inr mem)), scopesIn_append, of_getD]
    show some (addNew (scopesIn tags id).eraseDups (scopesIn more id).eraseDups) = _
    rw [addNew_eraseDups, eraseDups_append_eraseDups]
  · rw [of_eq_none mem]
    show of tags id = _
    rw [of, of, scopesIn_append, scopesIn_eq_nil mem, List.append_nil]
    simp only [both, mem, or_false]

/-- One tag more. -/
theorem TagTable.add_of (tags : List (CaptureId × List Scope)) (id : CaptureId) (scopes : List Scope) :
    add (of tags) id scopes = of (tags ++ [(id, scopes)]) := by
  rw [← merge_of]
  funext k
  unfold add merge
  by_cases same : k = id
  · have single : of [(id, scopes)] id = some scopes.eraseDups := by
      rw [of_eq_some List.mem_cons_self]
      simp [scopesIn]
    rw [same, if_pos rfl, single]
    show some (addNew ((of tags id).getD []) scopes) =
      some (addNew ((of tags id).getD []) scopes.eraseDups)
    rw [of_getD, addNew_eraseDups, addNew_eraseDups, eraseDups_append_eraseDups]
  · have other : k ∉ [(id, scopes)].map Prod.fst := mt List.mem_singleton.1 same
    rw [if_neg same, of_eq_none other]

end Tables

theorem collected_eq (p : Pattern) : p.collected = .of p.highlights := by
  induction p with
  | leaf text => rfl
  | sequence p q ihp ihq | alternation p q ihp ihq =>
    rw [Pattern.collected, Pattern.highlights, ihp, ihq, TagTable.merge_of]
  | repetition p _ _ ih | capture p _ _ ih | look _ p ih => exact ih
  | tag p scopes serial ih =>
    rw [Pattern.collected, Pattern.highlights, ih, TagTable.add_of, Pattern.tagTarget_eq]

/-- The tags of a compiled pattern. -/
structure TagsFollow (p : Pattern) (f : Fragment) : Prop where
  /-- The captures with tags are those that some tag in the pattern belongs to. -/
  keys : ∀ id, id ∈ f.highlighted ↔
    ∃ q scopes serial, .tag q scopes serial ∈ p.nodes ∧ q.tagTarget serial = id
  /-- A capture has the scopes of all its tags, each at its first occurrence. -/
  scopes : ∀ id, f.tagsOf id = (scopesIn (p.nodes.filterMap Pattern.tagging?) id).eraseDups
  /-- They are what is collected node by node. -/
  collected : ∀ id, p.collected id = if id ∈ f.highlighted then some (f.tagsOf id) else none
  /-- A capture with tags has a group. -/
  grouped : ∀ id ∈ f.highlighted, f.groupsOf id ≠ []
  /-- So resolving the captures fails for declared names only. -/
  resolved : f.checkHighlighted = .ok () ∧
    ∀ (α : Type) (declared : NameMap (Declaration α)) (fault : Fault),
      f.styles declared = .error fault → ∃ name, (declared.get? name).isSome ∧
        (fault = .unresolvedCapture name ∨ fault = .ambiguousName name)

/-- A name that is not found is reported under its own name. -/
theorem Fragment.fault_of_checkName {f : Fragment} {name : String} {fault : Fault}
    (h : f.checkName name = .error fault) :
    fault = .unresolvedCapture name ∨ fault = .ambiguousName name := by
  unfold checkName at h
  split at h
  · split at h
    · cases h
      exact .inl rfl
    · cases h
  · split at h
    · cases h
      exact .inr rfl
    · split at h
      · cases h
        exact .inl rfl
      · cases h

/-- Tags follow their capture, and none of them is lost. -/
theorem compile_tagsFollow {p : Pattern} {f : Fragment} (h : p.compile = .ok f) : TagsFollow p f := by
  have built := builds_of_compile h
  have tags (id : CaptureId) : f.tagsOf id = (scopesIn p.highlights id).eraseDups := by
    rw [Fragment.tagsOf, highlights_of_builds built]
    rfl
  refine ⟨?_, ?_, ?_, ?_, checkHighlighted_of_builds built, ?_⟩
  · intro id
    rw [mem_highlighted_of_builds built]
    exact Pattern.isTagged_iff
  · intro id
    rw [tags, Pattern.highlights_eq_nodes]
  · intro id
    rw [collected_eq, TagTable.of, tags]
    simp only [mem_highlighted_of_builds built, Pattern.isTagged]
  · exact Fragment.checkHighlighted_eq_ok_iff.1 (checkHighlighted_of_builds built)
  · intro α declared fault fails
    obtain ⟨before, e, behind, entries, -, unresolved⟩ := (styles_eq_error_iff built).1 fails
    have entry : (e.1, e.2) ∈ declared.entries := by
      rw [entries]
      exact List.mem_append_right _ List.mem_cons_self
    refine ⟨e.1, ?_, Fragment.fault_of_checkName unresolved⟩
    exact Option.isSome_of_eq_some (NameMap.mem_entries_iff.1 entry)

/-- A capture under two tags, one on the other, and once more behind them under a third one. -/
def sharedTags : Pattern :=
  .sequence (.tag (.tag (.capture (.leaf "a") "x" 0) [⟨"b"⟩, ⟨"a"⟩] 1) [⟨"c"⟩, ⟨"b"⟩] 2)
    (.alternation (.tag (.capture (.leaf "a") "x" 0) [⟨"d"⟩, ⟨"c"⟩] 3) (.tag (.leaf "e") [⟨"a"⟩] 4))

/-- The fragment of `sharedTags`. -/
def sharedTagsFragment : Fragment where
  text := "(a)(?:(a)|(e))"
  precedence := .sequence
  groups := [some ⟨0, some "x"⟩, some ⟨0, some "x"⟩, some ⟨4, none⟩]
  bound := [⟨0, some "x"⟩, ⟨0, some "x"⟩]
  highlights := [(⟨0, some "x"⟩, [⟨"b"⟩, ⟨"a"⟩]), (⟨0, some "x"⟩, [⟨"c"⟩, ⟨"b"⟩]),
    (⟨0, some "x"⟩, [⟨"d"⟩, ⟨"c"⟩]), (⟨4, none⟩, [⟨"a"⟩])]

theorem compile_tagsFollow_sharedTags :
    sharedTags.compile = .ok sharedTagsFragment ∧ TagsFollow sharedTags sharedTagsFragment ∧
      sharedTagsFragment.tagsOf ⟨0, some "x"⟩ = [⟨"b"⟩, ⟨"a"⟩, ⟨"c"⟩, ⟨"d"⟩] ∧
      sharedTagsFragment.highlighted = [⟨0, some "x"⟩, ⟨4, none⟩] := by
  have compiled : sharedTags.compile = .ok sharedTagsFragment := by rfl
  exact ⟨compiled, compile_tagsFollow compiled, by decide, by decide⟩

end TextMate
