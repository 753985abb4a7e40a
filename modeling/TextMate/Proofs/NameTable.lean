import TextMate.Proofs.Names
import TextMate.Proofs.TagCollection

/-!
# What the names of captures stand for

While a pattern is put together, a table keeps the last capture of every name and flags the name when
a different capture takes it over. Only the last captures of two parts are compared, so a capture that
is hidden behind another one of its name is not looked at again. No ambiguity is missed by that
(`several_append`): the table flags exactly the names that two captures of the pattern have
(`records_nameTable`), and it agrees with the names of the fragment.
-/

set_option autoImplicit false

namespace TextMate

section Several

variable {α : Type} {xs ys : List α}

/-- The list has two different elements. -/
def Several (xs : List α) : Prop := ∃ a ∈ xs, ∃ b ∈ xs, a ≠ b

theorem not_several_singleton (a : α) : ¬ Several [a] := by
  rintro ⟨b, hb, c, hc, ne⟩
  exact ne ((List.mem_singleton.1 hb).trans (List.mem_singleton.1 hc).symm)

/-- If an element of `xs` differs from one of `ys` then the last ones differ as well, or else one of the
lists has two different elements by itself. -/
theorem several_of_ne {a b : α} (ha : a ∈ xs) (hb : b ∈ ys) (ne : a ≠ b) :
    Several xs ∨ Several ys ∨ ∃ a b, xs.getLast? = some a ∧ ys.getLast? = some b ∧ a ≠ b := by
  obtain ⟨l, last⟩ := Option.isSome_iff_exists.1 (List.getLast?_isSome.2 (List.ne_nil_of_mem ha))
  obtain ⟨m, last'⟩ := Option.isSome_iff_exists.1 (List.getLast?_isSome.2 (List.ne_nil_of_mem hb))
  by_cases common : l = m
  · subst common
    -- Not both `a` and `b` are the common last element, so one of the lists has another one too.
    by_cases same : a = l
    · exact .inr (.inl ⟨b, hb, l, List.mem_of_getLast? last', fun eq => ne (same.trans eq.symm)⟩)
    · exact .inl ⟨a, ha, l, List.mem_of_getLast? last, same⟩
  · exact .inr (.inr ⟨l, m, last, last', common⟩)

/-- To find two different elements in two lists, it is enough to look into each and to compare the last
ones. -/
theorem several_append :
    Several (xs ++ ys) ↔
      Several xs ∨ Several ys ∨ ∃ a b, xs.getLast? = some a ∧ ys.getLast? = some b ∧ a ≠ b := by
  constructor
  · rintro ⟨a, ha, b, hb, ne⟩
    rcases List.mem_append.1 ha with ha | ha <;> rcases List.mem_append.1 hb with hb | hb
    · exact .inl ⟨a, ha, b, hb, ne⟩
    · exact several_of_ne ha hb ne
    · exact several_of_ne hb ha ne.symm
    · exact .inr (.inl ⟨a, ha, b, hb, ne⟩)
  · rintro (⟨a, ha, b, hb, ne⟩ | ⟨a, ha, b, hb, ne⟩ | ⟨a, b, ha, hb, ne⟩)
    · exact ⟨a, List.mem_append_left _ ha, b, List.mem_append_left _ hb, ne⟩
    · exact ⟨a, List.mem_append_right _ ha, b, List.mem_append_right _ hb, ne⟩
    · exact ⟨a, List.mem_append_left _ (List.mem_of_getLast? ha),
        b, List.mem_append_right _ (List.mem_of_getLast? hb), ne⟩

end Several

/-- Those of the captures that are called `name`. -/
def called (name : String) (ids : List CaptureId) : List CaptureId :=
  ids.filter fun id => id.name? = some name

theorem called_append (name : String) (ids more : List CaptureId) :
    called name (ids ++ more) = called name ids ++ called name more :=
  List.filter_append ..

theorem called_singleton {n : String} {id : CaptureId} (named : id.name? = some n) (name : String) :
    called name [id] = if name = n then [id] else [] := by
  by_cases own : name = n
  · rw [if_pos own]
    exact List.filter_cons_of_pos (decide_eq_true (own ▸ named))
  · rw [if_neg own]
    exact List.filter_cons_of_neg (by simpa [named] using Ne.symm own)

/-- The last capture of every name, and the names that were taken over by another capture. -/
structure NameTable where
  last : NameMap CaptureId
  flagged : List String

namespace NameTable

def empty : NameTable := ⟨.empty, []⟩

/-- Calls a capture `name`. -/
def bind (t : NameTable) (name : String) (id : CaptureId) : NameTable where
  last := t.last.insert name id
  flagged :=
    match t.last.get? name with
    | none => t.flagged
    | some previous => if previous = id then t.flagged else name :: t.flagged

/-- Gives each name to its capture, from left to right. -/
def bindAll (t : NameTable) (es : List (String × CaptureId)) : NameTable :=
  es.foldl (fun t e => t.bind e.1 e.2) t

/-- Takes over the names of another table, and the flags it has already. -/
def merge (t u : NameTable) : NameTable :=
  let both := t.bindAll u.last.entries
  { both with flagged := both.flagged ++ u.flagged }

variable {t u : NameTable} {ids more : List CaptureId}

theorem get?_bind (t : NameTable) (n : String) (id : CaptureId) (name : String) :
    (t.bind n id).last.get? name = if name = n then some id else t.last.get? name :=
  NameMap.get?_insert ..

theorem mem_flagged_bind {n name : String} {id : CaptureId} :
    name ∈ (t.bind n id).flagged ↔
      name ∈ t.flagged ∨ name = n ∧ ∃ previous, t.last.get? n = some previous ∧ previous ≠ id := by
  unfold bind
  split
  · next unbound => simp [unbound]
  · next previous bound =>
    by_cases same : previous = id
    · simp [bound, same]
    · simp [bound, same, or_comm]

theorem lookup_of_new {es : List (String × CaptureId)} {name : String} (new : ∀ e ∈ es, name ≠ e.1) :
    es.lookup name = none :=
  List.lookup_eq_none_iff.2 fun e mem => by simpa using new e mem

theorem get?_bindAll {es : List (String × CaptureId)} (distinct : es.Pairwise fun a b => a.1 ≠ b.1)
    (name : String) :
    (t.bindAll es).last.get? name = (es.lookup name).or (t.last.get? name) := by
  induction es generalizing t with
  | nil => rfl
  | cons e es ih =>
    obtain ⟨first, rest⟩ := List.pairwise_cons.1 distinct
    show ((t.bind e.1 e.2).bindAll es).last.get? name = _
    rw [ih rest, get?_bind, NameMap.lookup_cons_if]
    by_cases own : name = e.1
    · have behind : es.lookup name = none := lookup_of_new (own ▸ first)
      rw [behind, if_pos own, if_pos own, Option.none_or, Option.some_or]
    · rw [if_neg own, if_neg own]

theorem mem_flagged_bindAll {es : List (String × CaptureId)}
    (distinct : es.Pairwise fun a b => a.1 ≠ b.1) {name : String} :
    name ∈ (t.bindAll es).flagged ↔
      name ∈ t.flagged ∨
        ∃ previous id, t.last.get? name = some previous ∧ es.lookup name = some id ∧ previous ≠ id := by
  induction es generalizing t with
  | nil => simp [bindAll]
  | cons e es ih =>
    obtain ⟨first, rest⟩ := List.pairwise_cons.1 distinct
    show name ∈ ((t.bind e.1 e.2).bindAll es).flagged ↔ _
    rw [ih rest, mem_flagged_bind, get?_bind, NameMap.lookup_cons_if]
    by_cases own : name = e.1
    · have behind : es.lookup name = none := lookup_of_new (own ▸ first)
      simp [own ▸ behind, own]
    · simp [own]

/-- The table says of every name what there is to say about the captures `ids`. -/
structure Records (t : NameTable) (ids : List CaptureId) : Prop where
  last : ∀ name, t.last.get? name = (called name ids).getLast?
  flagged : ∀ name, name ∈ t.flagged ↔ Several (called name ids)

theorem records_empty : empty.Records [] where
  last _ := rfl
  flagged _ := iff_of_false nofun nofun

/-- A new capture is compared with the last one of its name only. -/
theorem Records.bind (h : t.Records ids) {n : String} {id : CaptureId} (named : id.name? = some n) :
    (t.bind n id).Records (ids ++ [id]) where
  last name := by
    rw [get?_bind, called_append, List.getLast?_append, called_singleton named]
    split
    · rfl
    · exact h.last name
  flagged name := by
    rw [mem_flagged_bind, called_append, several_append, called_singleton named, h.flagged, h.last]
    by_cases own : name = n
    · simp [own, not_several_singleton]
    · simp [own, Several]

/-- Of two tables, only the last captures of each name are compared. -/
theorem Records.merge (h : t.Records ids) (h' : u.Records more) : (t.merge u).Records (ids ++ more) where
  last name := by
    show (t.bindAll u.last.entries).last.get? name = _
    rw [get?_bindAll u.last.pairwise_ne, called_append, List.getLast?_append, ← h.last, ← h'.last]
    rfl
  flagged name := by
    show name ∈ (t.bindAll u.last.entries).flagged ++ u.flagged ↔ _
    rw [List.mem_append, mem_flagged_bindAll u.last.pairwise_ne, called_append, several_append,
      ← h.flagged, ← h'.flagged, ← h.last, ← h'.last, or_assoc, or_comm (b := name ∈ u.flagged)]
    rfl

/-- The captures determine the table. -/
theorem Records.eq (h : t.Records ids) (h' : u.Records ids) :
    t.last = u.last ∧ ∀ name, name ∈ t.flagged ↔ name ∈ u.flagged := by
  refine ⟨NameMap.ext_get? fun name => ?_, fun name => ?_⟩
  · rw [h.last, h'.last]
  · rw [h.flagged, h'.flagged]

end NameTable

namespace Pattern

/-- The names of a pattern as they are collected: a node takes over the tables of its parts, and a
capture then takes its own name. -/
def nameTable : Pattern → NameTable
  | leaf _ => .empty
  | sequence p q | alternation p q => p.nameTable.merge q.nameTable
  | repetition p _ _ | look _ p | tag p _ _ => p.nameTable
  | capture p name serial => p.nameTable.bind name ⟨serial, some name⟩

theorem records_nameTable (p : Pattern) : p.nameTable.Records p.namedCaptures := by
  induction p with
  | leaf text => exact NameTable.records_empty
  | sequence p q ihp ihq | alternation p q ihp ihq => exact ihp.merge ihq
  | repetition p _ _ ih | look _ p ih | tag p _ _ ih => exact ih
  | capture p name serial ih => exact ih.bind rfl

/-- The named captures are the capture nodes, from the inside out. -/
theorem namedCaptures_eq_nodes (p : Pattern) : p.namedCaptures = p.nodes.filterMap captureId? := by
  induction p with
  | leaf text => rfl
  | sequence p q ihp ihq | alternation p q ihp ihq =>
    rw [namedCaptures, nodes, List.filterMap_append, List.filterMap_append, ← ihp, ← ihq]
    exact (List.append_nil _).symm
  | repetition p _ _ ih | look _ p ih | tag p _ _ ih =>
    rw [namedCaptures, nodes, List.filterMap_append, ← ih]
    exact (List.append_nil _).symm
  | capture p name serial ih =>
    rw [namedCaptures, nodes, List.filterMap_append, ← ih]
    rfl

/-- The capture of a node that is called `name`. -/
def calling? (name : String) (p : Pattern) : Option CaptureId :=
  p.captureId?.filter fun id => id.name? = some name

theorem calling?_eq_some_iff {name : String} {p : Pattern} {id : CaptureId} :
    p.calling? name = some id ↔ ∃ q serial, p = capture q name serial ∧ id = ⟨serial, some name⟩ := by
  rw [calling?, Option.filter_eq_some_iff, decide_eq_true_iff]
  constructor
  · rintro ⟨own, named⟩
    cases p with
    | capture q n serial =>
      cases own
      cases named
      exact ⟨q, serial, rfl, rfl⟩
    | _ => cases own
  · rintro ⟨q, serial, rfl, rfl⟩
    exact ⟨rfl, rfl⟩

theorem calling?_eq_none_iff {name : String} {p : Pattern} :
    p.calling? name = none ↔ ∀ q serial, p ≠ capture q name serial := by
  rw [Option.eq_none_iff_forall_ne_some]
  constructor
  · intro none q serial eq
    exact none _ (calling?_eq_some_iff.2 ⟨q, serial, eq, rfl⟩)
  · intro none id own
    obtain ⟨q, serial, eq, -⟩ := calling?_eq_some_iff.1 own
    exact none q serial eq

theorem called_eq_nodes (name : String) (p : Pattern) :
    called name p.namedCaptures = p.nodes.filterMap (calling? name) := by
  rw [called, namedCaptures_eq_nodes, List.filter_filterMap]
  rfl

theorem mem_called_iff {name : String} {p : Pattern} {id : CaptureId} :
    id ∈ called name p.namedCaptures ↔
      ∃ q serial, capture q name serial ∈ p.nodes ∧ id = ⟨serial, some name⟩ := by
  rw [called_eq_nodes, List.mem_filterMap]
  constructor
  · rintro ⟨node, inside, own⟩
    obtain ⟨q, serial, rfl, rfl⟩ := calling?_eq_some_iff.1 own
    exact ⟨q, serial, inside, rfl⟩
  · rintro ⟨q, serial, inside, rfl⟩
    exact ⟨_, inside, calling?_eq_some_iff.2 ⟨q, serial, rfl, rfl⟩⟩

/-- The last capture of a name: none of the nodes behind it is called so. -/
theorem getLast?_called_iff {name : String} {p : Pattern} {id : CaptureId} :
    (called name p.namedCaptures).getLast? = some id ↔
      ∃ before q serial behind, p.nodes = before ++ capture q name serial :: behind ∧
        id = ⟨serial, some name⟩ ∧ ∀ q' serial', capture q' name serial' ∉ behind := by
  rw [called_eq_nodes, List.getLast?_filterMap, List.findSome?_eq_some_iff]
  constructor
  · rintro ⟨behind, node, before, eq, own, free⟩
    obtain ⟨q, serial, rfl, rfl⟩ := calling?_eq_some_iff.1 own
    refine ⟨before.reverse, q, serial, behind.reverse, ?_, rfl, ?_⟩
    · simpa using congrArg List.reverse eq
    · intro q' serial' mem
      exact calling?_eq_none_iff.1 (free _ (List.mem_reverse.1 mem)) q' serial' rfl
  · rintro ⟨before, q, serial, behind, eq, rfl, free⟩
    refine ⟨behind.reverse, _, before.reverse, by simp [eq],
      calling?_eq_some_iff.2 ⟨q, serial, rfl, rfl⟩, ?_⟩
    intro node mem
    refine calling?_eq_none_iff.2 fun q' serial' same => free q' serial' ?_
    rw [← same]
    exact List.mem_reverse.1 mem

/-- Two different captures are called `name`. -/
theorem several_called_iff {name : String} {p : Pattern} :
    Several (called name p.namedCaptures) ↔
      ∃ q serial q' serial', capture q name serial ∈ p.nodes ∧ capture q' name serial' ∈ p.nodes ∧
        serial ≠ serial' := by
  constructor
  · rintro ⟨a, ha, b, hb, ne⟩
    obtain ⟨q, serial, inside, rfl⟩ := mem_called_iff.1 ha
    obtain ⟨q', serial', inside', rfl⟩ := mem_called_iff.1 hb
    exact ⟨q, serial, q', serial', inside, inside', fun eq => ne (by rw [eq])⟩
  · rintro ⟨q, serial, q', serial', inside, inside', ne⟩
    refine ⟨⟨serial, some name⟩, mem_called_iff.2 ⟨q, serial, inside, rfl⟩,
      ⟨serial', some name⟩, mem_called_iff.2 ⟨q', serial', inside', rfl⟩, fun eq => ne ?_⟩
    exact congrArg CaptureId.serial eq

end Pattern

namespace Fragment

/-- The names of a fragment are those of its captures, the last of each name. -/
theorem get?_names (f : Fragment) (name : String) :
    f.names.get? name = (called name f.bound).getLast? := by
  rw [names]
  induction f.bound using List.reverseRecOn with
  | nil => rfl
  | append_singleton ids id ih =>
    rw [List.filterMap_append, called_append, List.getLast?_append, ← ih]
    cases named : id.name? with
    | none => simp [called, named]
    | some n =>
      have single : [id].filterMap (fun id => id.name?.map fun name => (name, id)) = [(n, id)] := by
        simp [named]
      rw [single, NameMap.ofList_concat, NameMap.get?_insert, called_singleton named]
      split <;> rfl

theorem isAmbiguous_iff {f : Fragment} {name : String} :
    f.isAmbiguous name = true ↔ Several (called name f.bound) := by
  simp only [isAmbiguous, List.any_eq_true, decide_eq_true_eq, Several, called, List.mem_filter]
  constructor
  · rintro ⟨a, ha, b, hb, named, named', ne⟩
    exact ⟨a, ⟨ha, named⟩, b, ⟨hb, named'⟩, ne⟩
  · rintro ⟨a, ⟨ha, named⟩, b, ⟨hb, named'⟩, ne⟩
    exact ⟨a, ha, b, hb, named, named', ne⟩

theorem mem_ambiguousNames {f : Fragment} {name : String} :
    name ∈ f.ambiguousNames ↔ f.isAmbiguous name = true := by
  rw [ambiguousNames, List.mem_filter, and_iff_right_iff_imp, isAmbiguous_iff]
  rintro ⟨a, ha, -⟩
  obtain ⟨id, last⟩ := Option.isSome_iff_exists.1 (List.getLast?_isSome.2 (List.ne_nil_of_mem ha))
  rw [← get?_names] at last
  exact List.mem_map_of_mem (NameMap.mem_entries_iff.2 last)

/-- A fragment has the table of its captures. -/
theorem records_names (f : Fragment) : (NameTable.mk f.names f.ambiguousNames).Records f.bound where
  last := f.get?_names
  flagged _ := mem_ambiguousNames.trans isAmbiguous_iff

end Fragment

/-- The names of a compiled pattern. -/
structure NamesKept (p : Pattern) (f : Fragment) : Prop where
  /-- A name stands for something exactly if some capture is called so. -/
  bound : ∀ name, (∃ id, f.names.get? name = some id) ↔ ∃ q serial, .capture q name serial ∈ p.nodes
  /-- It stands for the last capture of the name. -/
  last : ∀ name id, f.names.get? name = some id ↔
    ∃ before q serial behind, p.nodes = before ++ .capture q name serial :: behind ∧
      id = ⟨serial, some name⟩ ∧ ∀ q' serial', .capture q' name serial' ∉ behind
  /-- It is ambiguous if two captures of different identity are called so. One of them may stand in
  any number of places. -/
  ambiguous : ∀ name, name ∈ f.ambiguousNames ↔
    ∃ q serial q' serial', .capture q name serial ∈ p.nodes ∧ .capture q' name serial' ∈ p.nodes ∧
      serial ≠ serial'
  /-- The list of the ambiguous names and the question for one of them agree. -/
  asked : ∀ name, f.isAmbiguous name = true ↔ name ∈ f.ambiguousNames
  /-- This is what is collected node by node. -/
  collected : p.nameTable.last = f.names ∧ ∀ name, name ∈ p.nameTable.flagged ↔ name ∈ f.ambiguousNames
  /-- A bound name has all groups of its capture, and there are some. -/
  groups : ∀ name id, f.names.get? name = some id → f.groupsNamed name ≠ [] ∧
    ∀ n, n ∈ f.groupsNamed name ↔ 1 ≤ n ∧ p.slots[n - 1]? = some (some id)
  /-- The groups are listed in increasing order. -/
  increasing : ∀ name, (f.groupsNamed name).Pairwise (· < ·)
  /-- The first group of a name is the least one. -/
  least : ∀ name n, f.firstGroupNamed? name = some n ↔
    n ∈ f.groupsNamed name ∧ ∀ m ∈ f.groupsNamed name, n ≤ m
  /-- A name that no capture has finds nothing. -/
  unbound : ∀ name, f.names.get? name = none → f.groupsNamed name = [] ∧ f.firstGroupNamed? name = none

/-- In an increasing list the first element is the least one. -/
theorem head?_eq_some_iff_least {ns : List Nat} (h : ns.Pairwise (· < ·)) {n : Nat} :
    ns.head? = some n ↔ n ∈ ns ∧ ∀ m ∈ ns, n ≤ m := by
  cases ns with
  | nil => simp
  | cons first rest =>
    obtain ⟨less, -⟩ := List.pairwise_cons.1 h
    constructor
    · rintro ⟨⟩
      refine ⟨List.mem_cons_self, fun m hm => ?_⟩
      rcases List.mem_cons.1 hm with rfl | hm
      · exact Nat.le_refl _
      · exact Nat.le_of_lt (less m hm)
    · rintro ⟨mem, least⟩
      rcases List.mem_cons.1 mem with rfl | mem
      · rfl
      · exact absurd (less n mem) (Nat.not_lt.2 (least first List.mem_cons_self))

/-- The groups of a name increase, whatever it stands for. -/
theorem Fragment.groupsNamed_pairwise (f : Fragment) (name : String) :
    (f.groupsNamed name).Pairwise (· < ·) := by
  unfold groupsNamed
  split
  · exact .nil
  · exact placesFrom_pairwise ..

/-- A name stands for the last capture that is called so and has all the groups of that capture.
Ambiguous are the names of several captures, none is overlooked. -/
theorem compile_namesKept {p : Pattern} {f : Fragment} (h : p.compile = .ok f) : NamesKept p f := by
  have built := builds_of_compile h
  have records := f.records_names
  rw [bound_of_builds built] at records
  have last (name : String) : f.names.get? name = (called name p.namedCaptures).getLast? :=
    records.last name
  have flagged (name : String) : name ∈ f.ambiguousNames ↔ Several (called name p.namedCaptures) :=
    records.flagged name
  refine ⟨?_, ?_, ?_, ?_, ?_, ?_, ?_, ?_, ?_⟩
  · intro name
    rw [last, ← Option.isSome_iff_exists, List.getLast?_isSome]
    constructor
    · intro nonempty
      obtain ⟨id, mem⟩ := List.exists_mem_of_ne_nil _ nonempty
      obtain ⟨q, serial, inside, -⟩ := Pattern.mem_called_iff.1 mem
      exact ⟨q, serial, inside⟩
    · rintro ⟨q, serial, inside⟩
      exact List.ne_nil_of_mem (Pattern.mem_called_iff.2 ⟨q, serial, inside, rfl⟩)
  · intro name id
    rw [last, Pattern.getLast?_called_iff]
  · intro name
    rw [flagged, Pattern.several_called_iff]
  · intro name
    exact Fragment.mem_ambiguousNames.symm
  · exact p.records_nameTable.eq records
  · intro name id found
    have groups : f.groupsNamed name = f.groupsOf id := by rw [Fragment.groupsNamed, found]
    rw [groups]
    refine ⟨groupsOf_ne_nil_of_calls built (calls_of_names built found), fun n => ?_⟩
    rw [Fragment.mem_groupsOf, groups_of_builds built]
  · exact f.groupsNamed_pairwise
  · intro name n
    exact head?_eq_some_iff_least (f.groupsNamed_pairwise name)
  · intro name free
    have none : f.groupsNamed name = [] := by rw [Fragment.groupsNamed, free]
    exact ⟨none, by rw [Fragment.firstGroupNamed?, none]; rfl⟩

/-- A name that a second capture takes and the first one takes back, and a name of one capture that is
used twice. -/
def takenBack : Pattern :=
  .sequence
    (.sequence (.capture (.leaf "a") "x" 0) (.sequence (.capture (.leaf "b") "x" 1)
      (.capture (.leaf "a") "x" 0)))
    (.alternation (.capture (.leaf "c") "y" 2) (.capture (.leaf "c") "y" 2))

/-- The fragment of `takenBack`. -/
def takenBackFragment : Fragment where
  text := "(a)(b)(a)(?:(c)|(c))"
  precedence := .sequence
  groups := [some ⟨0, some "x"⟩, some ⟨1, some "x"⟩, some ⟨0, some "x"⟩, some ⟨2, some "y"⟩,
    some ⟨2, some "y"⟩]
  bound := [⟨0, some "x"⟩, ⟨1, some "x"⟩, ⟨0, some "x"⟩, ⟨2, some "y"⟩, ⟨2, some "y"⟩]
  highlights := []

theorem compile_namesKept_takenBack :
    takenBack.compile = .ok takenBackFragment ∧ NamesKept takenBack takenBackFragment ∧
      takenBackFragment.names.get? "x" = some ⟨0, some "x"⟩ ∧
      takenBackFragment.groupsNamed "x" = [1, 3] ∧ takenBackFragment.firstGroupNamed? "y" = some 4 ∧
      takenBackFragment.ambiguousNames = ["x"] := by
  have compiled : takenBack.compile = .ok takenBackFragment := by rfl
  exact ⟨compiled, compile_namesKept compiled, by decide, by decide, by decide, by decide⟩

end TextMate
