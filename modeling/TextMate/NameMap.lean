/-!
# Maps keyed by names

An association list kept in strictly increasing order of its names, code point by code point.
A name occurs once, so two maps with the same look-ups are equal (`NameMap.ext_get?`) and the
order in which they were filled cannot be seen.
-/

set_option autoImplicit false

namespace TextMate

/-- Entries whose names increase strictly. -/
structure NameMap (α : Type) where
  entries : List (String × α)
  ordered : entries.Pairwise fun a b => a.1 < b.1

namespace NameMap

variable {α β : Type}

def empty : NameMap α := ⟨[], .nil⟩

instance : Inhabited (NameMap α) := ⟨empty⟩

/-- Puts `a` at `name`, before the first greater name or in place of an equal one. -/
def insertEntry (name : String) (a : α) : List (String × α) → List (String × α)
  | [] => [(name, a)]
  | e :: rest =>
    if name < e.1 then (name, a) :: e :: rest
    else if name = e.1 then (name, a) :: rest
    else e :: insertEntry name a rest

theorem mem_insertEntry {name : String} {a : α} {es : List (String × α)} {x : String × α}
    (h : x ∈ insertEntry name a es) : x = (name, a) ∨ x ∈ es := by
  induction es with
  | nil => simpa [insertEntry] using h
  | cons e rest ih => grind [insertEntry]

theorem lt_of_not_lt_of_ne {m n : String} (h : ¬ n < m) (h' : ¬ n = m) : m < n := by
  rcases Decidable.em (m < n) with hl | hl
  · exact hl
  · exact absurd (String.le_antisymm (String.not_lt.1 hl) (String.not_lt.1 h)) h'

theorem insertEntry_ordered (name : String) (a : α) {es : List (String × α)}
    (h : es.Pairwise fun a b => a.1 < b.1) :
    (insertEntry name a es).Pairwise fun a b => a.1 < b.1 := by
  induction es with
  | nil => simp [insertEntry]
  | cons e rest ih =>
    obtain ⟨first, tail⟩ := List.pairwise_cons.1 h
    unfold insertEntry
    split
    · next lt =>
      refine List.pairwise_cons.2 ⟨fun x hx => ?_, h⟩
      rcases List.mem_cons.1 hx with rfl | hx
      · exact lt
      · exact String.lt_trans lt (first x hx)
    · next ge =>
      split
      · next eq => exact List.pairwise_cons.2 ⟨fun x hx => eq ▸ first x hx, tail⟩
      · next ne =>
        refine List.pairwise_cons.2 ⟨fun x hx => ?_, ih tail⟩
        rcases mem_insertEntry hx with rfl | hx
        · exact lt_of_not_lt_of_ne ge ne
        · exact first x hx

/-- The map with `a` at `name`; what was there before is replaced. -/
def insert (m : NameMap α) (name : String) (a : α) : NameMap α :=
  ⟨insertEntry name a m.entries, insertEntry_ordered name a m.ordered⟩

/-- Later entries replace earlier ones of the same name. -/
def ofList (es : List (String × α)) : NameMap α :=
  es.foldl (fun m e => m.insert e.1 e.2) empty

def get? (m : NameMap α) (name : String) : Option α :=
  m.entries.lookup name

def isEmpty (m : NameMap α) : Bool :=
  m.entries.isEmpty

theorem lookup_cons_if (m : String) (b : α) (es : List (String × α)) (n : String) :
    ((m, b) :: es).lookup n = if n = m then some b else es.lookup n := by
  by_cases h : n = m
  · subst h
    simp
  · simp [List.lookup_cons, beq_false_of_ne h, h]

theorem lookup_insertEntry (name : String) (a : α) (es : List (String × α)) (n : String) :
    (insertEntry name a es).lookup n = if n = name then some a else es.lookup n := by
  induction es with
  | nil => rw [insertEntry, lookup_cons_if]
  | cons e rest ih =>
    obtain ⟨m, b⟩ := e
    grind [insertEntry, lookup_cons_if]

@[simp] theorem get?_insert (m : NameMap α) (name : String) (a : α) (n : String) :
    (m.insert name a).get? n = if n = name then some a else m.get? n :=
  lookup_insertEntry name a m.entries n

theorem lookup_eq_none_of_lt {es : List (String × α)} {n : String} (h : ∀ x ∈ es, n < x.1) :
    es.lookup n = none := by
  induction es with
  | nil => rfl
  | cons e rest ih =>
    obtain ⟨m, b⟩ := e
    have hm : n < m := h (m, b) (by simp)
    have ne : n ≠ m := fun eq => String.lt_irrefl m (eq ▸ hm)
    rw [lookup_cons_if, if_neg ne]
    exact ih fun x hx => h x (List.mem_cons_of_mem _ hx)

/-- With different keys, every entry is the one that is found under its key. -/
theorem lookup_of_mem {κ : Type} [BEq κ] [LawfulBEq κ] {es : List (κ × α)}
    (h : es.Pairwise fun a b => a.1 ≠ b.1) {key : κ} {a : α} (mem : (key, a) ∈ es) :
    es.lookup key = some a := by
  induction es with
  | nil => cases mem
  | cons e rest ih =>
    obtain ⟨first, tail⟩ := List.pairwise_cons.1 h
    rcases List.mem_cons.1 mem with rfl | later
    · exact List.lookup_cons_self
    · have ne : key ≠ e.1 := (first (key, a) later).symm
      rw [List.lookup_cons, beq_false_of_ne ne]
      exact ih tail later

theorem mem_of_lookup {κ : Type} [BEq κ] [LawfulBEq κ] {es : List (κ × α)} {key : κ} {a : α}
    (h : es.lookup key = some a) : (key, a) ∈ es := by
  obtain ⟨before, behind, rfl, -⟩ := List.lookup_eq_some_iff.1 h
  simp

/-- What is done to all values is done to the one that is found. -/
theorem lookup_map {κ : Type} [BEq κ] (g : α → β) (es : List (κ × α)) (key : κ) :
    (es.map fun e => (e.1, g e.2)).lookup key = (es.lookup key).map g := by
  induction es with
  | nil => rfl
  | cons e es ih =>
    rw [List.map_cons, List.lookup_cons, List.lookup_cons, ih]
    split <;> rfl

theorem pairwise_ne (m : NameMap α) : m.entries.Pairwise fun a b => a.1 ≠ b.1 := by
  refine m.ordered.imp ?_
  intro a b lt eq
  exact String.lt_irrefl b.1 (eq ▸ lt)

/-- What is done to all values leaves the names as they are. -/
def map (g : α → β) (m : NameMap α) : NameMap β :=
  ⟨m.entries.map fun e => (e.1, g e.2), List.pairwise_map.2 m.ordered⟩

theorem get?_map (g : α → β) (m : NameMap α) (name : String) :
    (m.map g).get? name = (m.get? name).map g :=
  lookup_map g m.entries name

/-- The entries are what can be looked up. -/
theorem mem_entries_iff {m : NameMap α} {name : String} {a : α} :
    (name, a) ∈ m.entries ↔ m.get? name = some a :=
  ⟨lookup_of_mem m.pairwise_ne, mem_of_lookup⟩

theorem entries_eq_of_lookup {es fs : List (String × α)}
    (he : es.Pairwise fun a b => a.1 < b.1) (hf : fs.Pairwise fun a b => a.1 < b.1)
    (h : ∀ n, es.lookup n = fs.lookup n) : es = fs := by
  induction es generalizing fs with
  | nil =>
    cases fs with
    | nil => rfl
    | cons f _ =>
      obtain ⟨k, b⟩ := f
      simpa using h k
  | cons e rest ih =>
    obtain ⟨m, a⟩ := e
    cases fs with
    | nil => simpa using h m
    | cons f more =>
      obtain ⟨k, b⟩ := f
      obtain ⟨first, tail⟩ := List.pairwise_cons.1 he
      obtain ⟨first', tail'⟩ := List.pairwise_cons.1 hf
      have notLess : ¬ m < k := fun lt => by
        have := h m
        rw [@lookup_eq_none_of_lt _ ((k, b) :: more) m fun x hx => by
          rcases List.mem_cons.1 hx with rfl | hx
          · exact lt
          · exact String.lt_trans lt (first' x hx)] at this
        simp at this
      have notGreater : ¬ k < m := fun lt => by
        have := h k
        rw [@lookup_eq_none_of_lt _ ((m, a) :: rest) k fun x hx => by
          rcases List.mem_cons.1 hx with rfl | hx
          · exact lt
          · exact String.lt_trans lt (first x hx)] at this
        simp at this
      have eq : m = k := String.le_antisymm (String.not_lt.1 notGreater) (String.not_lt.1 notLess)
      subst eq
      have value : a = b := by simpa [lookup_cons_if] using h m
      subst value
      congr 1
      refine ih tail tail' fun n => ?_
      by_cases hn : n = m
      · subst hn
        rw [lookup_eq_none_of_lt first, lookup_eq_none_of_lt first']
      · simpa [lookup_cons_if, hn] using h n

/-- Look-ups determine a map. -/
theorem ext_get? {m m' : NameMap α} (h : ∀ n, m.get? n = m'.get? n) : m = m' := by
  obtain ⟨es, he⟩ := m
  obtain ⟨fs, hf⟩ := m'
  obtain rfl : es = fs := entries_eq_of_lookup he hf h
  rfl

end NameMap

end TextMate
