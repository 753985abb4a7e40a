import TextMate.Proofs.Slots
import TextMate.Proofs.Styles

/-!
# The captures of a pattern

Whatever the compiler says about captures, it says about nodes of the pattern: a named capture and a
capture with a highlight each have a group (`mem_slots_of_named`, `mem_slots_of_isTagged`), and the
serial number of a group is that of a node (`serial_mem_of_mem_slots`). So a highlight never lacks
a group (`checkHighlighted_of_builds`), and the style of a fragment can only fail for a declared name
(`styles_eq_ok_iff`).
-/

set_option autoImplicit false

namespace TextMate

namespace Pattern

/-- The serial numbers of the captures and the highlights of the pattern. -/
def serials : Pattern → List Nat
  | leaf _ => []
  | sequence p q | alternation p q => p.serials ++ q.serials
  | repetition p _ _ | look _ p => p.serials
  | capture p _ serial | tag p _ serial => serial :: p.serials

/-- The captures that have a name, each after all the captures inside it. A capture that stands in
several places occurs several times. -/
def namedCaptures : Pattern → List CaptureId
  | leaf _ => []
  | sequence p q | alternation p q => p.namedCaptures ++ q.namedCaptures
  | repetition p _ _ | look _ p | tag p _ _ => p.namedCaptures
  | capture p name serial => p.namedCaptures ++ [⟨serial, some name⟩]

variable {p : Pattern} {id : CaptureId}

/-- A group of the element is a group of the highlight. -/
theorem mem_slots_tag (scopes : List Scope) (serial : Nat) (h : some id ∈ p.slots) :
    some id ∈ (tag p scopes serial).slots := by
  rw [slots]
  split
  · exact h
  · exact List.mem_cons_of_mem _ h

/-- A highlight has a group, its own or that of its element. -/
theorem mem_slots_of_target? (h : p.target? = some id) : some id ∈ p.slots := by
  induction p generalizing id with
  | capture p name serial _ =>
    cases h
    exact List.mem_cons_self
  | tag p scopes serial ih =>
    cases target : p.target? with
    | some inner =>
      have same : inner = id := by simpa [target?, target] using h
      exact mem_slots_tag scopes serial (ih (same ▸ target))
    | none =>
      obtain rfl : ⟨serial, none⟩ = id := by simpa [target?, target] using h
      rw [slots, if_neg (not_hasTarget_of_none target)]
      exact List.mem_cons_self
  | _ => cases h

/-- A capture with a highlight has a group. -/
theorem mem_slots_of_isTagged (h : p.isTagged id) : some id ∈ p.slots := by
  unfold isTagged at h
  induction p with
  | leaf => cases h
  | sequence p q ihp ihq | alternation p q ihp ihq =>
    rw [highlights, List.map_append, List.mem_append] at h
    exact List.mem_append.2 (h.imp ihp ihq)
  | repetition p _ _ ih | look _ p ih => exact ih h
  | capture p name serial ih => exact List.mem_cons_of_mem _ (ih h)
  | tag p scopes serial ih =>
    rw [highlights, List.map_append, List.mem_append] at h
    rcases h with inside | own
    · exact mem_slots_tag scopes serial (ih inside)
    · obtain rfl : id = p.target?.getD ⟨serial, none⟩ := by simpa using own
      exact mem_slots_of_target? rfl

/-- A capture with a name has a group. -/
theorem mem_slots_of_named (h : id ∈ p.namedCaptures) : some id ∈ p.slots := by
  induction p with
  | leaf => cases h
  | sequence p q ihp ihq | alternation p q ihp ihq =>
    exact List.mem_append.2 ((List.mem_append.1 h).imp ihp ihq)
  | repetition p _ _ ih | look _ p ih => exact ih h
  | capture p name serial ih =>
    rcases List.mem_append.1 h with inside | own
    · exact List.mem_cons_of_mem _ (ih inside)
    · rw [List.mem_singleton.1 own]
      exact List.mem_cons_self
  | tag p scopes serial ih => exact mem_slots_tag scopes serial (ih h)

/-- A group with a name was opened for a capture that has that name. -/
theorem named_of_mem_slots {name : String} (h : some id ∈ p.slots) (named : id.name? = some name) :
    id ∈ p.namedCaptures := by
  induction p with
  | leaf => simp [slots] at h
  | sequence p q ihp ihq | alternation p q ihp ihq =>
    exact List.mem_append.2 ((List.mem_append.1 h).imp ihp ihq)
  | repetition p _ _ ih | look _ p ih => exact ih h
  | capture p name serial ih =>
    rcases List.mem_cons.1 h with own | inside
    · cases own
      exact List.mem_append_right _ List.mem_cons_self
    · exact List.mem_append_left _ (ih inside)
  | tag p scopes serial ih =>
    rw [slots] at h
    split at h
    · exact ih h
    · rcases List.mem_cons.1 h with own | inside
      · cases own
        cases named
      · exact ih inside

/-- A group is opened for a node of the pattern. -/
theorem serial_mem_of_mem_slots (h : some id ∈ p.slots) : id.serial ∈ p.serials := by
  induction p with
  | leaf => simp [slots] at h
  | sequence p q ihp ihq | alternation p q ihp ihq =>
    exact List.mem_append.2 ((List.mem_append.1 h).imp ihp ihq)
  | repetition p _ _ ih | look _ p ih => exact ih h
  | capture p name serial ih =>
    rcases List.mem_cons.1 h with own | inside
    · cases own
      exact List.mem_cons_self
    · exact List.mem_cons_of_mem _ (ih inside)
  | tag p scopes serial ih =>
    rw [slots] at h
    split at h
    · exact List.mem_cons_of_mem _ (ih h)
    · rcases List.mem_cons.1 h with own | inside
      · cases own
        exact List.mem_cons_self
      · exact List.mem_cons_of_mem _ (ih inside)

end Pattern

theorem bound_of_builds {p : Pattern} {f : Fragment} (h : Builds p f) :
    f.bound = p.namedCaptures := by
  induction h with
  | leaf text => rfl
  | sequence _ _ ihp ihq => rw [Fragment.bound_beside, ihp, ihq, Pattern.namedCaptures]
  | alternation _ _ ihp ihq =>
    rw [Pattern.namedCaptures, ← ihp, ← ihq]
    rfl
  | repetition _ _ _ ih =>
    rw [Pattern.namedCaptures, ← ih]
    exact Fragment.bound_guarded ..
  | capture name serial _ ih =>
    rw [Pattern.namedCaptures, ← ih]
    rfl
  | look kind _ ih => exact ih
  | tag scopes serial target _ ih => exact ih
  | tagged scopes serial target _ _ ih => exact ih

namespace Fragment

variable {f : Fragment} {id : CaptureId}

theorem groupsOf_ne_nil_iff : f.groupsOf id ≠ [] ↔ some id ∈ f.groups := by
  constructor
  · intro nonempty
    obtain ⟨n, mem⟩ := List.exists_mem_of_ne_nil _ nonempty
    exact List.mem_of_getElem? (mem_groupsOf.1 mem).2
  · intro mem
    obtain ⟨i, place⟩ := List.getElem?_of_mem mem
    have found : i + 1 ∈ f.groupsOf id := mem_groupsOf.2 ⟨Nat.succ_pos i, place⟩
    exact List.ne_nil_of_mem found

theorem checkHighlighted_eq_ok_iff :
    f.checkHighlighted = .ok () ↔ ∀ id ∈ f.highlighted, f.groupsOf id ≠ [] := by
  unfold checkHighlighted
  split
  · next id found =>
    have empty : f.groupsOf id = [] := by simpa using List.find?_some found
    refine ⟨nofun, fun all => ?_⟩
    exact absurd empty (all id (List.mem_of_find?_eq_some found))
  · next none =>
    simpa using none

end Fragment

theorem mem_highlighted_of_builds {p : Pattern} {f : Fragment} (h : Builds p f) {id : CaptureId} :
    id ∈ f.highlighted ↔ p.isTagged id := by
  rw [Fragment.highlighted, List.mem_eraseDups, highlights_of_builds h, Pattern.isTagged]

/-- A highlight never lacks a group. -/
theorem checkHighlighted_of_builds {p : Pattern} {f : Fragment} (h : Builds p f) :
    f.checkHighlighted = .ok () := by
  refine Fragment.checkHighlighted_eq_ok_iff.2 fun id mem => ?_
  rw [Fragment.groupsOf_ne_nil_iff, groups_of_builds h]
  exact Pattern.mem_slots_of_isTagged ((mem_highlighted_of_builds h).1 mem)

/-- A list of checks passes if each of them does. -/
theorem forM_eq_ok_iff {ε α : Type} {check : α → Except ε Unit} {as : List α} :
    as.forM check = .ok () ↔ ∀ a ∈ as, check a = .ok () := by
  induction as with
  | nil => simp [pure, Except.pure]
  | cons a as ih =>
    change (check a >>= fun _ => as.forM check) = .ok () ↔ _
    rw [bind_eq_ok_iff, List.forall_mem_cons]
    constructor
    · rintro ⟨_, head, tail⟩
      exact ⟨head, ih.1 tail⟩
    · rintro ⟨head, tail⟩
      exact ⟨(), head, ih.2 tail⟩

/-- A list of checks fails with the first of them that does. -/
theorem forM_eq_error_iff {ε α : Type} {check : α → Except ε Unit} {as : List α} {e : ε} :
    as.forM check = .error e ↔ ∃ before a behind, as = before ++ a :: behind ∧
      (∀ b ∈ before, check b = .ok ()) ∧ check a = .error e := by
  induction as with
  | nil => simp [pure, Except.pure]
  | cons a as ih =>
    change (check a >>= fun _ => as.forM check) = .error e ↔ _
    rw [bind_eq_error_iff, ih]
    constructor
    · rintro (first | ⟨_, passes, before, b, behind, rfl, earlier, fails⟩)
      · exact ⟨[], a, as, rfl, nofun, first⟩
      · exact ⟨a :: before, b, behind, rfl, List.forall_mem_cons.2 ⟨passes, earlier⟩, fails⟩
    · rintro ⟨before, b, behind, eq, earlier, fails⟩
      cases before with
      | nil =>
        cases eq
        exact .inl fails
      | cons c before =>
        cases eq
        obtain ⟨passes, earlier⟩ := List.forall_mem_cons.1 earlier
        exact .inr ⟨(), passes, before, b, behind, rfl, earlier, fails⟩

/-- The styles of a compiled pattern exist if every declared name finds a group. -/
theorem styles_eq_ok_iff {α : Type} {p : Pattern} {f : Fragment} (h : Builds p f)
    {declared : NameMap (Declaration α)} {styles : List (Nat × GroupStyle α)} :
    f.styles declared = .ok styles ↔
      (∀ e ∈ declared.entries, f.checkName e.1 = .ok ()) ∧
        styles = ((Fragment.wholeStyle? declared).map fun style => (0, style)).toList ++
          f.stylesFrom declared 1 f.groups := by
  constructor
  · intro found
    refine ⟨?_, Fragment.styles_eq_ok found⟩
    unfold Fragment.styles at found
    obtain ⟨_, -, found⟩ := bind_eq_ok_iff.1 found
    obtain ⟨_, names, -⟩ := bind_eq_ok_iff.1 found
    exact forM_eq_ok_iff.1 names
  · rintro ⟨names, rfl⟩
    unfold Fragment.styles
    refine bind_eq_ok_iff.2 ⟨(), checkHighlighted_of_builds h, ?_⟩
    exact bind_eq_ok_iff.2 ⟨(), forM_eq_ok_iff.2 names, rfl⟩

/-- The styles of a compiled pattern fail for the first declared name that finds nothing. -/
theorem styles_eq_error_iff {α : Type} {p : Pattern} {f : Fragment} (h : Builds p f)
    {declared : NameMap (Declaration α)} {fault : Fault} :
    f.styles declared = .error fault ↔ ∃ before e behind,
      declared.entries = before ++ e :: behind ∧ (∀ b ∈ before, f.checkName b.1 = .ok ()) ∧
        f.checkName e.1 = .error fault := by
  let check (e : String × Declaration α) := f.checkName e.1
  refine Iff.trans ?_ (@forM_eq_error_iff _ _ check declared.entries fault)
  unfold Fragment.styles
  rw [checkHighlighted_of_builds h, bind_eq_error_iff]
  constructor
  · rintro (first | ⟨_, -, later⟩)
    · cases first
    · rcases bind_eq_error_iff.1 later with names | ⟨_, -, done⟩
      · exact names
      · cases done
  · intro names
    exact .inr ⟨(), rfl, bind_eq_error_iff.2 (.inl names)⟩

end TextMate
