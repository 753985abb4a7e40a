import TextMate.Proofs.Builds

/-!
# Group numbers

The slots of a pattern are its numbered groups in the order in which they open, each with the
capture that it is opened for. A capture that stands in several places has a slot in each of them.

While a pattern is put together, a table counts the groups and keeps the numbers of every capture. Whenever
other groups come before those of a part, the numbers of the part move up. In the end the numbers of a
capture are the places of its slots (`groupTable_eq`), so no number belongs to two captures. The list of
groups that a fragment has gives the same numbers (`groups_of_builds`).
-/

set_option autoImplicit false

namespace TextMate

namespace Pattern

/-- A highlight on the pattern needs no group of its own: it is a capture or a highlight. -/
def hasTarget : Pattern → Bool
  | capture _ _ _ | tag _ _ _ => true
  | _ => false

/-- The numbered groups from left to right. The groups that a leaf opens are nobody's. -/
def slots : Pattern → List (Option CaptureId)
  | leaf text => List.replicate (Regex.captureCount text) none
  | sequence first second | alternation first second => first.slots ++ second.slots
  | repetition element _ _ | look _ element => element.slots
  | capture element name serial => some ⟨serial, some name⟩ :: element.slots
  | tag element _ serial =>
    if element.hasTarget then element.slots else some ⟨serial, none⟩ :: element.slots

theorem hasTarget_eq (p : Pattern) : p.hasTarget = p.target?.isSome := by
  cases p <;> rfl

theorem hasTarget_of_some {p : Pattern} {id : CaptureId} (h : p.target? = some id) :
    p.hasTarget = true := by
  rw [hasTarget_eq, h, Option.isSome_some]

theorem not_hasTarget_of_none {p : Pattern} (h : p.target? = none) : ¬ p.hasTarget = true := by
  rw [hasTarget_eq, h]
  decide

end Pattern

/-- A fragment has one group for each slot of its pattern, in the same order. -/
theorem groups_of_builds {p : Pattern} {f : Fragment} (h : Builds p f) : f.groups = p.slots := by
  induction h with
  | leaf text => rfl
  | sequence _ _ ihp ihq => rw [Fragment.groups_beside, ihp, ihq, Pattern.slots]
  | alternation _ _ ihp ihq =>
    rw [Pattern.slots, ← ihp, ← ihq]
    rfl
  | repetition _ _ _ ih =>
    rw [Pattern.slots, ← ih]
    exact Fragment.groups_guarded ..
  | capture name serial _ ih =>
    rw [Pattern.slots, ← ih]
    rfl
  | look kind _ ih => exact ih
  | tag scopes serial target _ ih =>
    rw [Pattern.slots, if_pos (Pattern.hasTarget_of_some target)]
    exact ih
  | tagged scopes serial target _ _ ih =>
    rw [Pattern.slots, if_neg (Pattern.not_hasTarget_of_none target), ← ih]
    rfl

namespace Fragment

variable {f g : Fragment} {id : CaptureId}

/-- The places of `id` among `groups`, where the first group has the number `i`. -/
def placesFrom (id : CaptureId) (i : Nat) (groups : List (Option CaptureId)) : List Nat :=
  (groups.zipIdx i).filterMap fun g => if g.1 = some id then some g.2 else none

theorem groupsOf_eq (f : Fragment) (id : CaptureId) : f.groupsOf id = placesFrom id 1 f.groups := rfl

theorem placesFrom_cons (id : CaptureId) (i : Nat) (label : Option CaptureId)
    (groups : List (Option CaptureId)) :
    placesFrom id i (label :: groups) =
      (if label = some id then [i] else []) ++ placesFrom id (i + 1) groups := by
  simp only [placesFrom, List.zipIdx_cons, List.filterMap_cons]
  split <;> simp_all

theorem placesFrom_append (id : CaptureId) (i : Nat) (as bs : List (Option CaptureId)) :
    placesFrom id i (as ++ bs) = placesFrom id i as ++ placesFrom id (i + as.length) bs := by
  simp [placesFrom, List.zipIdx_append]

theorem placesFrom_add (id : CaptureId) (i n : Nat) (groups : List (Option CaptureId)) :
    placesFrom id (i + n) groups = (placesFrom id i groups).map (· + n) := by
  induction groups generalizing i with
  | nil => rfl
  | cons label rest ih =>
    rw [placesFrom_cons, placesFrom_cons, List.map_append, ← ih, Nat.add_right_comm]
    split <;> rfl

theorem mem_placesFrom {n i : Nat} {groups : List (Option CaptureId)} :
    n ∈ placesFrom id i groups ↔ i ≤ n ∧ groups[n - i]? = some (some id) := by
  simp only [placesFrom, List.mem_filterMap, Prod.exists, List.mk_mem_zipIdx_iff_le_and_getElem?_sub]
  constructor
  · rintro ⟨label, m, ⟨le, at'⟩, h⟩
    split at h
    · next own =>
      cases h
      exact ⟨le, by rw [at', own]⟩
    · cases h
  · rintro ⟨le, at'⟩
    exact ⟨some id, n, ⟨le, at'⟩, if_pos rfl⟩

theorem placesFrom_eq_nil {i : Nat} {groups : List (Option CaptureId)} (h : some id ∉ groups) :
    placesFrom id i groups = [] :=
  List.eq_nil_iff_forall_not_mem.2 fun _ mem => h (List.mem_of_getElem? (mem_placesFrom.1 mem).2)

theorem placesFrom_pairwise (id : CaptureId) (i : Nat) (groups : List (Option CaptureId)) :
    (placesFrom id i groups).Pairwise (· < ·) := by
  induction groups generalizing i with
  | nil => exact .nil
  | cons label rest ih =>
    rw [placesFrom_cons]
    split
    · refine List.pairwise_cons.2 ⟨fun n hn => ?_, ih (i + 1)⟩
      have le := (mem_placesFrom.1 hn).1
      omega
    · exact ih (i + 1)

theorem mem_groupsOf {n : Nat} :
    n ∈ f.groupsOf id ↔ 1 ≤ n ∧ f.groups[n - 1]? = some (some id) :=
  mem_placesFrom

theorem mem_captures : id ∈ f.captures ↔ some id ∈ f.groups := by
  rw [captures, List.mem_eraseDups, List.mem_filterMap]
  simp

theorem le_captureCount_of_mem_groupsOf {n : Nat} (h : n ∈ f.groupsOf id) :
    1 ≤ n ∧ n ≤ f.captureCount := by
  obtain ⟨pos, at'⟩ := mem_groupsOf.1 h
  have bound := (List.getElem?_eq_some_iff.1 at').1
  refine ⟨pos, ?_⟩
  rw [captureCount]
  omega

end Fragment

/-- How many groups there are, and the numbers of the captures that have some. -/
structure GroupTable where
  count : Nat
  numbers : CaptureId → Option (List Nat)

namespace GroupTable

open Fragment (placesFrom placesFrom_cons placesFrom_append placesFrom_add placesFrom_eq_nil)

/-- Groups that are nobody's. -/
def unlabelled (count : Nat) : GroupTable where
  count := count
  numbers _ := none

/-- The numbers of a capture behind `offset` other groups. -/
def shifted (t : GroupTable) (offset : Nat) (id : CaptureId) : Option (List Nat) :=
  (t.numbers id).map fun ns => ns.map (· + offset)

/-- Puts the groups of `u` behind those of `t`. -/
def append (t u : GroupTable) : GroupTable where
  count := t.count + u.count
  numbers id :=
    match u.shifted t.count id with
    | none => t.numbers id
    | some ns => some ((t.numbers id).getD [] ++ ns)

/-- Opens a group for `id` before all others. -/
def opened (t : GroupTable) (id : CaptureId) : GroupTable where
  count := t.count + 1
  numbers k := if k = id then some (1 :: (t.shifted 1 id).getD []) else t.shifted 1 k

/-- The table of slots: the captures that have some, with their places. -/
def of (slots : List (Option CaptureId)) : GroupTable where
  count := slots.length
  numbers id := if some id ∈ slots then some (placesFrom id 1 slots) else none

section Slots

variable {slots : List (Option CaptureId)} {id : CaptureId}

theorem numbers_of_mem (h : some id ∈ slots) : (of slots).numbers id = some (placesFrom id 1 slots) :=
  if_pos h

theorem numbers_of_not_mem (h : some id ∉ slots) : (of slots).numbers id = none :=
  if_neg h

theorem shifted_of_mem (h : some id ∈ slots) (offset : Nat) :
    (of slots).shifted offset id = some (placesFrom id (1 + offset) slots) := by
  rw [shifted, numbers_of_mem h, placesFrom_add]
  rfl

theorem shifted_of_not_mem (h : some id ∉ slots) (offset : Nat) :
    (of slots).shifted offset id = none := by
  rw [shifted, numbers_of_not_mem h]
  rfl

theorem getD_numbers_of (slots : List (Option CaptureId)) (id : CaptureId) :
    ((of slots).numbers id).getD [] = placesFrom id 1 slots := by
  by_cases mem : some id ∈ slots
  · rw [numbers_of_mem mem, Option.getD_some]
  · rw [numbers_of_not_mem mem, placesFrom_eq_nil mem, Option.getD_none]

theorem getD_shifted_of (slots : List (Option CaptureId)) (offset : Nat) (id : CaptureId) :
    ((of slots).shifted offset id).getD [] = placesFrom id (1 + offset) slots := by
  rw [placesFrom_add, ← getD_numbers_of]
  exact Option.getD_map _ [] _

end Slots

theorem of_replicate (count : Nat) : of (List.replicate count none) = unlabelled count := by
  rw [of, unlabelled, List.length_replicate]
  congr 1
  funext id
  exact if_neg (by simp)

/-- Two tables make the table of the slots in a row. -/
theorem append_of (slots more : List (Option CaptureId)) :
    (of slots).append (of more) = of (slots ++ more) := by
  have count : (of slots).count + (of more).count = (slots ++ more).length := List.length_append.symm
  rw [append, count, of.eq_def (slots ++ more)]
  congr 1
  funext id
  have both : some id ∈ slots ++ more ↔ some id ∈ slots ∨ some id ∈ more := List.mem_append
  by_cases later : some id ∈ more
  · rw [shifted_of_mem later, getD_numbers_of, if_pos (both.2 (.inr later)), placesFrom_append]
    rfl
  · rw [shifted_of_not_mem later, placesFrom_append, placesFrom_eq_nil later, List.append_nil]
    show (of slots).numbers id = _
    simp only [of, both, later, or_false]

/-- A group before all others has the first slot. -/
theorem opened_of (slots : List (Option CaptureId)) (id : CaptureId) :
    (of slots).opened id = of (some id :: slots) := by
  rw [opened, of.eq_def (some id :: slots)]
  congr 1
  funext k
  rw [placesFrom_cons]
  by_cases own : k = id
  · rw [own, if_pos rfl, getD_shifted_of, if_pos List.mem_cons_self, if_pos rfl]
    rfl
  · have other : some id ≠ some k := fun same => own (Option.some.inj same).symm
    have mem : some k ∈ some id :: slots ↔ some k ∈ slots := by simp [own]
    rw [if_neg own, if_neg other, List.nil_append]
    by_cases listed : some k ∈ slots
    · rw [shifted_of_mem listed, if_pos (mem.2 listed)]
    · rw [shifted_of_not_mem listed, if_neg (mt mem.1 listed)]

end GroupTable

/-- The table of a pattern as it is kept: a node puts the tables of its parts together, and a capture or a
highlight without one opens a group. -/
def Pattern.groupTable : Pattern → GroupTable
  | leaf text => .unlabelled (Regex.captureCount text)
  | sequence p q | alternation p q => p.groupTable.append q.groupTable
  | repetition p _ _ | look _ p => p.groupTable
  | capture p name serial => p.groupTable.opened ⟨serial, some name⟩
  | tag p _ serial => if p.hasTarget then p.groupTable else p.groupTable.opened ⟨serial, none⟩

theorem groupTable_eq (p : Pattern) : p.groupTable = .of p.slots := by
  induction p with
  | leaf text => exact (GroupTable.of_replicate _).symm
  | sequence p q ihp ihq | alternation p q ihp ihq =>
    rw [Pattern.groupTable, ihp, ihq, GroupTable.append_of, Pattern.slots]
  | repetition p _ _ ih | look _ p ih => exact ih
  | capture p name serial ih => rw [Pattern.groupTable, ih, GroupTable.opened_of, Pattern.slots]
  | tag p _ serial ih =>
    rw [Pattern.groupTable, Pattern.slots, ih]
    split
    · rfl
    · exact GroupTable.opened_of ..

/-- The numbers of the groups of a compiled pattern. -/
structure GroupsNumbered (p : Pattern) (f : Fragment) : Prop where
  /-- There is a group for each slot. -/
  count : p.groupTable.count = p.slots.length
  /-- A capture without a slot has no entry. -/
  absent : ∀ id, p.groupTable.numbers id = none ↔ some id ∉ p.slots
  /-- The numbers of a capture are the places of its slots. -/
  places : ∀ id ns, p.groupTable.numbers id = some ns →
    ∀ n, n ∈ ns ↔ 1 ≤ n ∧ p.slots[n - 1]? = some (some id)
  increasing : ∀ id ns, p.groupTable.numbers id = some ns → ns.Pairwise (· < ·)
  /-- Every number is that of a group. -/
  bounds : ∀ id ns, p.groupTable.numbers id = some ns → ∀ n ∈ ns, 1 ≤ n ∧ n ≤ p.groupTable.count
  /-- No number belongs to two captures. -/
  apart : ∀ id ns id' ns' n, p.groupTable.numbers id = some ns → p.groupTable.numbers id' = some ns' →
    n ∈ ns → n ∈ ns' → id = id'
  /-- The fragment has the same groups with the same numbers. -/
  counted : f.captureCount = p.groupTable.count
  listed : ∀ id, p.groupTable.numbers id = if id ∈ f.captures then some (f.groupsOf id) else none

/-- However often groups are moved up while a pattern is put together, their numbers are the places of the
slots in the end. -/
theorem groupsOf_compile {p : Pattern} {f : Fragment} (h : p.compile = .ok f) : GroupsNumbered p f := by
  have groups := groups_of_builds (builds_of_compile h)
  have listed (id : CaptureId) :
      p.groupTable.numbers id = if id ∈ f.captures then some (f.groupsOf id) else none := by
    rw [groupTable_eq, GroupTable.of, ← groups]
    simp only [Fragment.mem_captures, Fragment.groupsOf_eq]
  have numbers {id : CaptureId} {ns : List Nat} (entry : p.groupTable.numbers id = some ns) :
      f.groupsOf id = ns := by
    rw [listed] at entry
    split at entry
    · exact Option.some.inj entry
    · cases entry
  have count : f.captureCount = p.groupTable.count := by
    rw [groupTable_eq, Fragment.captureCount, groups]
    rfl
  refine ⟨?_, ?_, ?_, ?_, ?_, ?_, count, listed⟩
  · rw [groupTable_eq]
    rfl
  · intro id
    rw [listed, ← groups, ← Fragment.mem_captures]
    simp
  · intro id ns entry n
    rw [← numbers entry, Fragment.mem_groupsOf, groups]
  · intro id ns entry
    rw [← numbers entry]
    exact Fragment.placesFrom_pairwise id 1 f.groups
  · intro id ns entry n hn
    rw [← numbers entry] at hn
    rw [← count]
    exact Fragment.le_captureCount_of_mem_groupsOf hn
  · intro id ns id' ns' n entry entry' hn hn'
    rw [← numbers entry] at hn
    rw [← numbers entry'] at hn'
    have same := (Fragment.mem_groupsOf.1 hn).2.symm.trans (Fragment.mem_groupsOf.1 hn').2
    simpa using same

/-- One capture in two places. A group is opened around the second one, where that of a leaf comes first. -/
def reusedCapture : Pattern :=
  .sequence (.capture (.leaf "a") "x" 0)
    (.tag (.sequence (.leaf "(,)") (.capture (.leaf "a") "x" 0)) [⟨"list"⟩] 1)

/-- The fragment of `reusedCapture`. -/
def reusedFragment : Fragment where
  text := "(a)((,)(a))"
  precedence := .sequence
  groups := [some ⟨0, some "x"⟩, some ⟨1, none⟩, none, some ⟨0, some "x"⟩]
  bound := [⟨0, some "x"⟩, ⟨0, some "x"⟩]
  highlights := [(⟨1, none⟩, [⟨"list"⟩])]

theorem groupsOf_reusedCapture :
    reusedCapture.compile = .ok reusedFragment ∧ GroupsNumbered reusedCapture reusedFragment ∧
      reusedCapture.groupTable.count = 4 ∧
      reusedCapture.groupTable.numbers ⟨0, some "x"⟩ = some [1, 4] ∧
      reusedCapture.groupTable.numbers ⟨1, none⟩ = some [2] := by
  have compiled : reusedCapture.compile = .ok reusedFragment := by rfl
  exact ⟨compiled, groupsOf_compile compiled, by decide, by decide, by decide⟩

end TextMate
