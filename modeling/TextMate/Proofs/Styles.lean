import TextMate.GroupStyle
import TextMate.Proofs.Builds

/-!
# Styles and the captures they belong to

The highlights of a pattern reach its fragment in their order, so the style of a capture can be read
off the pattern (`styleOf?_of_builds`). A group has a style exactly if it was opened for a capture
that has one, and then it is that style (`mem_styles`). No group has two (`styles_increasing`).
-/

set_option autoImplicit false

namespace TextMate

namespace Pattern

/-- The scopes that are put on captures: inner highlights before outer ones and left ones before
right ones. -/
def highlights : Pattern → List (CaptureId × List Scope)
  | leaf _ => []
  | sequence p q | alternation p q => p.highlights ++ q.highlights
  | repetition p _ _ | capture p _ _ | look _ p => p.highlights
  | tag p scopes serial => p.highlights ++ [(p.target?.getD ⟨serial, none⟩, scopes)]

/-- A capture is tagged if a highlight belongs to it, with or without a scope. -/
def isTagged (p : Pattern) (id : CaptureId) : Prop :=
  id ∈ p.highlights.map Prod.fst

/-- The scopes that are put on a capture, each at its first occurrence. -/
def tagsOf (p : Pattern) (id : CaptureId) : List Scope :=
  ((p.highlights.filter fun h => h.1 = id).flatMap Prod.snd).eraseDups

end Pattern

variable {α β : Type}

theorem highlights_of_builds {p : Pattern} {f : Fragment} (h : Builds p f) :
    f.highlights = p.highlights := by
  induction h with
  | leaf text => rfl
  | sequence _ _ ihp ihq => rw [Fragment.highlights_beside, ihp, ihq, Pattern.highlights]
  | alternation _ _ ihp ihq =>
    rw [Pattern.highlights, ← ihp, ← ihq]
    rfl
  | repetition _ _ _ ih =>
    rw [Pattern.highlights, ← ih]
    exact Fragment.highlights_guarded ..
  | capture name serial _ ih => exact ih
  | look kind _ ih => exact ih
  | tag scopes serial target _ ih =>
    rw [Pattern.highlights, target, ← ih]
    rfl
  | tagged scopes serial target _ _ ih =>
    rw [Pattern.highlights, target, ← ih]
    rfl

/-- The style of a capture, read off the pattern. -/
theorem styleOf?_of_builds {p : Pattern} {f : Fragment} (h : Builds p f)
    {declared : NameMap (Declaration α)} {id : CaptureId} {style : GroupStyle α} :
    f.styleOf? declared id = some style ↔
      (p.isTagged id ∨ (Fragment.declarationFor? declared id).isSome) ∧
        style = ⟨(p.tagsOf id ++ (Fragment.declaredScope? declared id).toList).eraseDups,
          Fragment.declaredPatterns declared id⟩ := by
  have tagged : id ∈ f.highlighted ↔ p.isTagged id := by
    rw [Fragment.highlighted, List.mem_eraseDups, highlights_of_builds h, Pattern.isTagged]
  have tags : f.tagsOf id = p.tagsOf id := by
    rw [Fragment.tagsOf, highlights_of_builds h, Pattern.tagsOf]
  rw [Fragment.styleOf?, Option.ite_none_right_eq_some, tagged, tags, Option.some.injEq,
    eq_comm (a := style)]

namespace Fragment

variable {f : Fragment} {declared : NameMap (Declaration α)} {styles : List (Nat × GroupStyle α)}

/-- The styles of `groups`, where the first group has the number `i`. -/
def stylesFrom (f : Fragment) (declared : NameMap (Declaration α)) (i : Nat)
    (groups : List (Option CaptureId)) : List (Nat × GroupStyle α) :=
  (groups.zipIdx i).filterMap fun g =>
    (g.1.bind (f.styleOf? declared)).map fun style => (g.2, style)

theorem styles_eq_ok (h : f.styles declared = .ok styles) :
    styles = ((wholeStyle? declared).map fun style => (0, style)).toList ++
      f.stylesFrom declared 1 f.groups := by
  unfold Fragment.styles at h
  obtain ⟨_, -, h⟩ := bind_eq_ok_iff.1 h
  obtain ⟨_, -, h⟩ := bind_eq_ok_iff.1 h
  exact (Except.ok.inj h).symm

theorem mem_stylesFrom {i n : Nat} {groups : List (Option CaptureId)} {style : GroupStyle α} :
    (n, style) ∈ f.stylesFrom declared i groups ↔
      i ≤ n ∧ ∃ id, groups[n - i]? = some (some id) ∧ f.styleOf? declared id = some style := by
  simp only [stylesFrom, List.mem_filterMap, Prod.exists, List.mk_mem_zipIdx_iff_le_and_getElem?_sub]
  constructor
  · rintro ⟨label, m, ⟨le, place⟩, h⟩
    obtain ⟨found, own, eq⟩ := Option.map_eq_some_iff.1 h
    obtain ⟨id, rfl, own⟩ := Option.bind_eq_some_iff.1 own
    cases eq
    exact ⟨le, id, place, own⟩
  · rintro ⟨le, id, place, own⟩
    exact ⟨some id, n, ⟨le, place⟩, by simp [own]⟩

theorem mem_styles (h : f.styles declared = .ok styles) {n : Nat} {style : GroupStyle α} :
    (n, style) ∈ styles ↔
      (n = 0 ∧ wholeStyle? declared = some style) ∨
        (1 ≤ n ∧ ∃ id, f.groups[n - 1]? = some (some id) ∧ f.styleOf? declared id = some style) := by
  rw [styles_eq_ok h, List.mem_append, mem_stylesFrom, Option.mem_toList]
  constructor
  · rintro (whole | group)
    · obtain ⟨_, whole, eq⟩ := Option.map_eq_some_iff.1 whole
      cases eq
      exact .inl ⟨rfl, whole⟩
    · exact .inr group
  · rintro (⟨rfl, whole⟩ | group)
    · exact .inl (Option.map_eq_some_iff.2 ⟨style, whole, rfl⟩)
    · exact .inr group

theorem stylesFrom_cons (f : Fragment) (declared : NameMap (Declaration α)) (i : Nat)
    (label : Option CaptureId) (groups : List (Option CaptureId)) :
    f.stylesFrom declared i (label :: groups) =
      ((label.bind (f.styleOf? declared)).map fun style => (i, style)).toList ++
        f.stylesFrom declared (i + 1) groups := by
  simp only [stylesFrom, List.zipIdx_cons, List.filterMap_cons]
  cases label.bind (f.styleOf? declared) <;> rfl

/-- The styles of later groups are the same with higher numbers. -/
theorem stylesFrom_add (f : Fragment) (declared : NameMap (Declaration α)) (i n : Nat)
    (groups : List (Option CaptureId)) :
    f.stylesFrom declared (i + n) groups =
      (f.stylesFrom declared i groups).map fun s => (s.1 + n, s.2) := by
  induction groups generalizing i with
  | nil => rfl
  | cons label rest ih =>
    rw [stylesFrom_cons, stylesFrom_cons, List.map_append, ← ih, Nat.add_right_comm]
    cases label.bind (f.styleOf? declared) <;> rfl

/-- Fragments whose captures have the same styles. -/
theorem stylesFrom_congr {g : Fragment} {declared' : NameMap (Declaration α)} {i : Nat}
    {groups : List (Option CaptureId)}
    (h : ∀ id, some id ∈ groups → g.styleOf? declared' id = f.styleOf? declared id) :
    g.stylesFrom declared' i groups = f.stylesFrom declared i groups := by
  induction groups generalizing i with
  | nil => rfl
  | cons label rest ih =>
    have head : label.bind (g.styleOf? declared') = label.bind (f.styleOf? declared) := by
      cases label with
      | none => rfl
      | some id => exact h id List.mem_cons_self
    rw [stylesFrom_cons, stylesFrom_cons, head, ih fun id mem => h id (List.mem_cons_of_mem _ mem)]

theorem stylesFrom_increasing (i : Nat) (groups : List (Option CaptureId)) :
    (f.stylesFrom declared i groups).Pairwise fun a b => a.1 < b.1 := by
  induction groups generalizing i with
  | nil => exact .nil
  | cons label rest ih =>
    have tail := ih (i + 1)
    unfold stylesFrom at tail ⊢
    rw [List.zipIdx_cons, List.filterMap_cons]
    split
    · exact tail
    · next head =>
      obtain ⟨style, -, rfl⟩ := Option.map_eq_some_iff.1 head
      refine List.pairwise_cons.2 ⟨?_, tail⟩
      rintro ⟨n, _⟩ mem
      have le : i + 1 ≤ n := (mem_stylesFrom.1 mem).1
      simp only
      omega

/-- The styles stand in the order of the group numbers, one for each group that has any. -/
theorem styles_increasing (h : f.styles declared = .ok styles) :
    styles.Pairwise fun a b => a.1 < b.1 := by
  rw [styles_eq_ok h]
  refine List.pairwise_append.2 ⟨?_, stylesFrom_increasing 1 f.groups, ?_⟩
  · cases wholeStyle? declared <;> simp
  · rintro ⟨n, _⟩ whole ⟨m, _⟩ group
    obtain ⟨_, -, eq⟩ := Option.map_eq_some_iff.1 (Option.mem_toList.1 whole)
    cases eq
    exact (mem_stylesFrom.1 group).1

end Fragment

end TextMate
