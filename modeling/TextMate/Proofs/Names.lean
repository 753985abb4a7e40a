import Mathlib.Data.List.Induction
import TextMate.Proofs.Identities

/-!
# What a declared name finds

A name is looked up among the captures of a pattern that are called so. It finds a group exactly if
one capture has the name, however often that capture occurs (`checkName_eq_ok_iff`); with none or
several of them the fault says which (`checkName_eq_error_iff`). The name of the whole match finds
the whole match unless the text is empty.
-/

set_option autoImplicit false

namespace TextMate

namespace NameMap

variable {α : Type}

/-- The last entry of a list is put into the map last. -/
theorem ofList_concat (es : List (String × α)) (e : String × α) :
    ofList (es ++ [e]) = (ofList es).insert e.1 e.2 := by
  rw [ofList, List.foldl_append]
  rfl

theorem mem_of_get?_ofList {es : List (String × α)} {name : String} {a : α}
    (h : (ofList es).get? name = some a) : (name, a) ∈ es := by
  induction es using List.reverseRecOn with
  | nil => cases h
  | append_singleton es e ih =>
    rw [ofList_concat, get?_insert] at h
    split at h
    · next same =>
      cases h
      exact List.mem_append_right es (by rw [same]; exact List.mem_cons_self)
    · exact List.mem_append_left _ (ih h)

theorem exists_get?_ofList {es : List (String × α)} {name : String} {a : α} (h : (name, a) ∈ es) :
    ∃ b, (ofList es).get? name = some b := by
  induction es using List.reverseRecOn with
  | nil => cases h
  | append_singleton es e ih =>
    rw [ofList_concat, get?_insert]
    split
    · exact ⟨e.2, rfl⟩
    · next other =>
      refine ih ((List.mem_append.1 h).resolve_right fun last => other ?_)
      rw [← List.mem_singleton.1 last]

end NameMap

namespace Pattern

/-- The capture `id` of the pattern is called `name`. -/
def Calls (p : Pattern) (name : String) (id : CaptureId) : Prop :=
  id ∈ p.namedCaptures ∧ id.name? = some name

/-- A declaration for `name` finds a group in the pattern with the regex `text`: there is a text to
match, or exactly one capture that is called so. -/
def Finds (p : Pattern) (text name : String) : Prop :=
  if name = wholeMatch then text ≠ "" else ∃! id, p.Calls name id

/-- Two captures of the pattern are called `name`. -/
def IsAmbiguous (p : Pattern) (name : String) : Prop :=
  ∃ a b, p.Calls name a ∧ p.Calls name b ∧ a ≠ b

/-- The fault of a declaration for `name`, if there is one. -/
def NameFault (p : Pattern) (text name : String) (fault : Fault) : Prop :=
  (name ≠ wholeMatch ∧ p.IsAmbiguous name ∧ fault = .ambiguousName name) ∨
    ((name = wholeMatch ∧ text = "" ∨ name ≠ wholeMatch ∧ ∀ id, ¬ p.Calls name id) ∧
      fault = .unresolvedCapture name)

end Pattern

variable {p : Pattern} {f : Fragment} {name : String} {id : CaptureId}

theorem mem_bindings :
    (name, id) ∈ f.bound.filterMap (fun id => id.name?.map fun name => (name, id)) ↔
      id ∈ f.bound ∧ id.name? = some name := by
  simp only [List.mem_filterMap, Option.map_eq_some_iff, Prod.mk.injEq]
  constructor
  · rintro ⟨id', mem, name', named, rfl, rfl⟩
    exact ⟨mem, named⟩
  · rintro ⟨mem, named⟩
    exact ⟨id, mem, name, named, rfl, rfl⟩

theorem isAmbiguous_of_builds (h : Builds p f) : f.isAmbiguous name = true ↔ p.IsAmbiguous name := by
  simp only [Fragment.isAmbiguous, List.any_eq_true, decide_eq_true_eq, bound_of_builds h]
  constructor
  · rintro ⟨a, ha, b, hb, named, named', ne⟩
    exact ⟨a, b, ⟨ha, named⟩, ⟨hb, named'⟩, ne⟩
  · rintro ⟨a, b, ⟨ha, named⟩, ⟨hb, named'⟩, ne⟩
    exact ⟨a, ha, b, hb, named, named', ne⟩

/-- The capture that a name stands for is called so. -/
theorem calls_of_names (h : Builds p f) (found : f.names.get? name = some id) : p.Calls name id := by
  have mem := mem_bindings.1 (NameMap.mem_of_get?_ofList found)
  rwa [bound_of_builds h] at mem

/-- A name that a capture has stands for one. -/
theorem exists_names_of_calls (h : Builds p f) (called : p.Calls name id) :
    ∃ id', f.names.get? name = some id' := by
  have mem : id ∈ f.bound := by
    rw [bound_of_builds h]
    exact called.1
  exact NameMap.exists_get?_ofList (mem_bindings.2 ⟨mem, called.2⟩)

/-- A capture with a name has a group. -/
theorem groupsOf_ne_nil_of_calls (h : Builds p f) (called : p.Calls name id) :
    f.groupsOf id ≠ [] := by
  rw [Fragment.groupsOf_ne_nil_iff, groups_of_builds h]
  exact Pattern.mem_slots_of_named called.1

/-- A name has no groups if no capture is called so. -/
theorem groupsNamed_eq_nil_iff (h : Builds p f) :
    f.groupsNamed name = [] ↔ ∀ id, ¬ p.Calls name id := by
  unfold Fragment.groupsNamed
  split
  · next unbound =>
    refine iff_of_true rfl fun id called => ?_
    obtain ⟨id', found⟩ := exists_names_of_calls h called
    rw [unbound] at found
    cases found
  · next id found =>
    have called := calls_of_names h found
    exact iff_of_false (groupsOf_ne_nil_of_calls h called) fun none => none id called

/-- A name that one capture only is called by has the groups of that capture. -/
theorem groupsNamed_eq (h : Builds p f) (called : p.Calls name id)
    (unique : ∀ id', p.Calls name id' → id' = id) : f.groupsNamed name = f.groupsOf id := by
  obtain ⟨id', found⟩ := exists_names_of_calls h called
  rw [Fragment.groupsNamed, found, unique id' (calls_of_names h found)]

/-- The groups of a name that finds something are those of the capture that is called so. -/
theorem mem_groupsNamed_iff (h : Builds p f) (other : name ≠ wholeMatch)
    (finds : p.Finds f.text name) {n : Nat} :
    n ∈ f.groupsNamed name ↔ ∃ id, n ∈ f.groupsOf id ∧ id.name? = some name := by
  unfold Pattern.Finds at finds
  rw [if_neg other] at finds
  obtain ⟨id, called, unique⟩ := finds
  rw [groupsNamed_eq h called unique]
  constructor
  · intro own
    exact ⟨id, own, called.2⟩
  · rintro ⟨id', own, named⟩
    have slot : some id' ∈ p.slots := by
      rw [← groups_of_builds h]
      exact List.mem_of_getElem? (Fragment.mem_groupsOf.1 own).2
    rwa [← unique id' ⟨Pattern.named_of_mem_slots slot named, named⟩]

/-- A name finds groups exactly if it stands for the whole of some text, or for one capture. -/
theorem checkName_eq_ok_iff (h : Builds p f) :
    f.checkName name = .ok () ↔ p.Finds f.text name := by
  unfold Fragment.checkName Pattern.Finds
  by_cases whole : name = wholeMatch
  · rw [if_pos whole, if_pos whole]
    split <;> simp_all
  rw [if_neg whole, if_neg whole]
  split
  · next ambiguous =>
    obtain ⟨a, b, ha, hb, ne⟩ := (isAmbiguous_of_builds h).1 ambiguous
    refine iff_of_false nofun ?_
    rintro ⟨id, -, unique⟩
    exact ne ((unique a ha).trans (unique b hb).symm)
  · next unambiguous =>
    rw [isAmbiguous_of_builds h] at unambiguous
    split
    · next empty =>
      refine iff_of_false nofun ?_
      rintro ⟨id, called, -⟩
      exact (groupsNamed_eq_nil_iff h).1 empty id called
    · next nonempty =>
      refine iff_of_true rfl ?_
      rw [groupsNamed_eq_nil_iff h] at nonempty
      obtain ⟨id, called⟩ := not_forall_not.1 nonempty
      refine ⟨id, called, fun id' called' => ?_⟩
      by_contra ne
      exact unambiguous ⟨id', id, called', called, ne⟩

/-- What is wrong with a name: several captures are called so, or there is nothing to find. -/
theorem checkName_eq_error_iff (h : Builds p f) {fault : Fault} :
    f.checkName name = .error fault ↔ p.NameFault f.text name fault := by
  unfold Fragment.checkName Pattern.NameFault
  by_cases whole : name = wholeMatch
  · rw [if_pos whole]
    split <;> simp_all [eq_comm (b := fault)]
  rw [if_neg whole, ← isAmbiguous_of_builds h, ← groupsNamed_eq_nil_iff h]
  split
  · next ambiguous =>
    have called : f.groupsNamed name ≠ [] := by
      obtain ⟨a, _, ha, -, -⟩ := (isAmbiguous_of_builds h).1 ambiguous
      rw [ne_eq, groupsNamed_eq_nil_iff h]
      exact fun none => none a ha
    simp [whole, ambiguous, called, eq_comm (b := fault)]
  · next unambiguous =>
    split
    · next empty => simp [whole, unambiguous, empty, eq_comm (b := fault)]
    · next nonempty => simp [whole, unambiguous, nonempty]

end TextMate
