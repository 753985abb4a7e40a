import TextMate.Proofs.Histories

/-!
# What is said about a grammar

The script of a grammar is what the calls of a history say about it, in their order. The grammar holds
no more than its script: the name it was begun with, the last scope name, all file types, all
top-level modes, and for every name of the repository the last entry (`describes_runWith`). So two
grammars with scripts that are alike are the same grammar (`eq_of_contents`).
-/

set_option autoImplicit false

namespace TextMate

/-- What has been said about a grammar. -/
structure Script where
  names : List String
  scopeNames : List String
  fileTypes : List String
  topLevel : List Handle
  entries : List (String × EntryCall)

namespace Script

def empty : Script := ⟨[], [], [], [], []⟩

/-- The script after a call, which may be about another grammar. -/
def add (x : Handle) (s : Script) : Call → Script
  | .grammar y name => if y = x then { s with names := s.names ++ [name] } else s
  | .scopeName y name => if y = x then { s with scopeNames := s.scopeNames ++ [name] } else s
  | .fileTypes y extensions =>
    if y = x then { s with fileTypes := s.fileTypes ++ extensions } else s
  | .patterns y modes => if y = x then { s with topLevel := s.topLevel ++ modes } else s
  | .rule y name entry =>
    if y = x then { s with entries := s.entries ++ [(name, entry)] } else s
  | .pattern _ _ | .mode _ _ => s

/-- All that is said about the grammar `x`. -/
def of (x : Handle) (calls : List Call) : Script :=
  calls.foldl (add x) empty

theorem of_concat (x : Handle) (calls : List Call) (call : Call) :
    of x (calls ++ [call]) = (of x calls).add x call :=
  List.foldl_concat ..

/-- The scripts have the same name, the same last scope name, the same file types and top-level modes
in order, and the same last entry for every name of the repository. -/
structure Alike (s t : Script) : Prop where
  names : s.names = t.names
  scopeName : s.scopeNames.getLast? = t.scopeNames.getLast?
  fileTypes : s.fileTypes = t.fileTypes
  topLevel : s.topLevel = t.topLevel
  entries : ∀ name, (NameMap.ofList s.entries).get? name = (NameMap.ofList t.entries).get? name

end Script

/-- The grammar holds what its script says. -/
structure Contents (d : Desk) (s : Script) (g : Grammar) : Prop where
  name : s.names = [g.name]
  scopeName : g.scopeName = s.scopeNames.getLast?
  fileTypes : g.fileTypes = s.fileTypes
  listed : d.HasModes s.topLevel
  patterns : g.patterns = s.topLevel.map d.mode
  entered : ∀ e ∈ s.entries, d.HasModes e.2.modes
  repository : ∀ name, g.repository.get? name =
    ((NameMap.ofList s.entries).get? name).map (EntryCall.value d.mode)

/-- A grammar that has not been begun has no script. -/
def Script.Describes (d : Desk) (s : Script) : Option Grammar → Prop
  | none => s = empty
  | some g => Contents d s g

variable {number : Handle → Nat} {calls : List Call} {d d' e : Desk} {x : Handle} {s t : Script}
  {g : Grammar}

/-- More modes do not change a grammar. -/
theorem Contents.grows (h : Contents d s g) (grows : d.Grows d') : Contents d' s g where
  name := h.name
  scopeName := h.scopeName
  fileTypes := h.fileTypes
  listed := grows.hasModes h.listed
  patterns := by rw [h.patterns, List.map_congr_left (grows.mode_eq h.listed)]
  entered e mem := grows.hasModes (h.entered e mem)
  repository name := by
    rw [h.repository]
    refine Option.map_congr fun entry found => ?_
    have mem := NameMap.mem_of_get?_ofList found
    exact entry.value_congr (grows.mode_eq (h.entered _ mem))

theorem Script.Describes.grows {found : Option Grammar} (h : s.Describes d found)
    (grows : d.Grows d') : s.Describes d' found := by
  cases found with
  | none => exact h
  | some g => exact Contents.grows h grows

section Builders

variable (h : Contents d s g)

include h

theorem Contents.withScopeName (name : String) :
    Contents d { s with scopeNames := s.scopeNames ++ [name] } (g.withScopeName name) :=
  { h with scopeName := List.getLast?_concat.symm }

theorem Contents.withFileTypes (extensions : List String) :
    Contents d { s with fileTypes := s.fileTypes ++ extensions } (g.withFileTypes extensions) :=
  { h with fileTypes := congrArg (· ++ extensions) h.fileTypes }

theorem Contents.withPatterns {modes : List Handle} (has : d.HasModes modes) :
    Contents d { s with topLevel := s.topLevel ++ modes } (g.withPatterns (modes.map d.mode)) :=
  { h with
    listed := List.forall_mem_append.2 ⟨h.listed, has⟩
    patterns := by
      rw [List.map_append, ← h.patterns]
      rfl }

theorem Contents.withRule (name : String) {entry : EntryCall} (has : d.HasModes entry.modes) :
    Contents d { s with entries := s.entries ++ [(name, entry)] }
      (g.withRule name (entry.value d.mode)) :=
  { h with
    entered := List.forall_mem_append.2 ⟨h.entered, List.forall_mem_singleton.2 has⟩
    repository := by
      intro other
      rw [Grammar.withRule, NameMap.get?_insert, NameMap.ofList_concat, NameMap.get?_insert,
        h.repository]
      split <;> rfl }

end Builders

theorem contents_new (d : Desk) (name : String) :
    Contents d { Script.empty with names := [name] } (.new name) where
  name := rfl
  scopeName := rfl
  fileTypes := rfl
  listed := nofun
  patterns := rfl
  entered := nofun
  repository _ := rfl

/-- A change of the grammar `y` leaves the script of another grammar as it is. -/
theorem Script.Describes.assign {y : Handle} {g' : Grammar} {s' : Script}
    (h : s.Describes d (d.grammars x)) (own : y = x → Contents d s' g') :
    (if y = x then s' else s).Describes { d with grammars := Desk.assign d.grammars y g' }
      (Desk.assign d.grammars y g' x) := by
  have grows : d.Grows { d with grammars := Desk.assign d.grammars y g' } :=
    ⟨fun _ _ found => found, fun _ _ found => found⟩
  unfold Desk.assign
  by_cases same : y = x
  · rw [if_pos same, if_pos same.symm]
    exact (own same).grows grows
  · rw [if_neg same, if_neg (Ne.symm same)]
    exact h.grows grows

theorem Script.Describes.step {call : Call} (h : s.Describes d (d.grammars x))
    (made : d.Steps number call d') : (s.add x call).Describes d' (d'.grammars x) := by
  have found {y : Handle} {g : Grammar} (there : d.grammars y = some g) (same : y = x) :
      Contents d s g := by
    rw [← same, there] at h
    exact h
  have grows := made.grows
  cases made with
  | pattern _ _ => exact h.grows grows
  | mode _ _ _ => exact h.grows grows
  | @grammar y name fresh =>
    refine h.assign fun same => ?_
    rw [← same, fresh] at h
    cases h
    exact contents_new d name
  | scopeName there => exact h.assign fun same => (found there same).withScopeName _
  | fileTypes there => exact h.assign fun same => (found there same).withFileTypes _
  | patterns there has => exact h.assign fun same => (found there same).withPatterns has
  | rule there has => exact h.assign fun same => (found there same).withRule _ has

/-- After a history every grammar is described by its script. -/
theorem describes_runWith (h : runWith number .empty calls = some d) (x : Handle) :
    (Script.of x calls).Describes d (d.grammars x) := by
  induction calls using List.reverseRecOn generalizing d with
  | nil =>
    cases h
    rfl
  | append_singleton calls call ih =>
    obtain ⟨m, before, made⟩ := runWith_concat.1 h
    rw [Script.of_concat]
    exact (ih before).step (Desk.steps_of_stepWith made)

/-- Grammars with scripts that are alike are the same, if their modes are. -/
theorem eq_of_contents {g' : Grammar} (agree : d.Agree e) (alike : s.Alike t) (h : Contents d s g)
    (h' : Contents e t g') : g = g' := by
  have name : g.name = g'.name := by
    have names := alike.names
    rw [h.name, h'.name] at names
    exact List.head_eq_of_cons_eq names
  have scopeName : g.scopeName = g'.scopeName := by
    rw [h.scopeName, h'.scopeName, alike.scopeName]
  have fileTypes : g.fileTypes = g'.fileTypes := by
    rw [h.fileTypes, h'.fileTypes, alike.fileTypes]
  have patterns : g.patterns = g'.patterns := by
    have listed := h'.listed
    rw [← alike.topLevel] at listed
    rw [h.patterns, h'.patterns, ← alike.topLevel, List.map_congr_left (agree.mode_eq h.listed listed)]
  have repository : g.repository = g'.repository := by
    refine NameMap.ext_get? fun name => ?_
    rw [h.repository, h'.repository, ← alike.entries]
    refine Option.map_congr fun entry found => ?_
    have mem := NameMap.mem_of_get?_ofList found
    rw [alike.entries] at found
    have mem' := NameMap.mem_of_get?_ofList found
    exact entry.value_congr (agree.mode_eq (h.entered _ mem) (h'.entered _ mem'))
  cases g
  cases g'
  cases name
  cases scopeName
  cases fileTypes
  cases patterns
  cases repository
  rfl

end TextMate
