import TextMate.Proofs.Balanced
import TextMate.Proofs.Reading

/-!
# The parts of a regex

A regex is divided at the bars outside its groups, and each alternative is a row of atoms with quantifiers
behind them. The scan reports the precedence that is seen from any such division (`precedence_exact`),
though it builds none: it has the first character of each part and nothing else.
-/

set_option autoImplicit false

namespace TextMate.Regex

open Precedence (alternation sequence quantified atom)

/-- An atom and the quantifiers behind it. -/
structure Item where
  atom : List Char
  quantifiers : List (List Char)
  isAtom : IsAtom atom
  areQuantifiers : ∀ q ∈ quantifiers, IsQuantifier q

def Item.text (i : Item) : List Char :=
  i.atom ++ i.quantifiers.flatten

structure Alternative where
  /-- Quantifiers at the start, which have nothing to repeat. -/
  leading : List (List Char)
  items : List Item
  areQuantifiers : ∀ q ∈ leading, IsQuantifier q

def Alternative.text (a : Alternative) : List Char :=
  a.leading.flatten ++ a.items.flatMap Item.text

structure Division where
  /-- The alternatives with a bar behind them. -/
  earlier : List Alternative
  last : Alternative

def Division.text (d : Division) : List Char :=
  d.earlier.flatMap (fun a => a.text ++ ['|']) ++ d.last.text

/-- A quantifier goes to the last item, or to the start if there is none. -/
theorem Alternative.exists_quantified (a : Alternative) {q : List Char} (h : IsQuantifier q) :
    ∃ a' : Alternative, a'.text = a.text ++ q := by
  rcases List.eq_nil_or_concat a.items with none | ⟨items, i, some⟩
  · have quantifiers : ∀ r ∈ a.leading ++ [q], IsQuantifier r := by
      simpa [or_imp, forall_and, h] using a.areQuantifiers
    exact ⟨⟨a.leading ++ [q], [], quantifiers⟩, by simp [text, none]⟩
  · have quantifiers : ∀ r ∈ i.quantifiers ++ [q], IsQuantifier r := by
      simpa [or_imp, forall_and, h] using i.areQuantifiers
    refine ⟨⟨a.leading, items ++ [⟨i.atom, i.quantifiers ++ [q], i.isAtom, quantifiers⟩],
      a.areQuantifiers⟩, ?_⟩
    simp [text, some, Item.text]

/-- An atom behind a division is an item of its last alternative. -/
theorem Division.exists_withAtom (d : Division) {a : List Char} (h : IsAtom a) :
    ∃ d' : Division, d'.text = d.text ++ a := by
  let item : Item := ⟨a, [], h, by simp⟩
  exact ⟨⟨d.earlier, d.last.leading, d.last.items ++ [item], d.last.areQuantifiers⟩,
    by simp [text, Alternative.text, Item.text, item]⟩

/-- Every balanced text can be divided. -/
theorem Balanced.exists_division {cs : List Char} (h : Balanced cs) : ∃ d : Division, d.text = cs := by
  have empty : ∃ a : Alternative, a.text = [] := ⟨⟨[], [], by simp⟩, rfl⟩
  induction h with
  | nil =>
    obtain ⟨a, none⟩ := empty
    exact ⟨⟨[], a⟩, none⟩
  | char _ ordinary ih =>
    obtain ⟨d, rfl⟩ := ih
    exact d.exists_withAtom (.char ordinary)
  | escape c _ ih =>
    obtain ⟨d, rfl⟩ := ih
    exact d.exists_withAtom (.escape c)
  | set _ whole ih =>
    obtain ⟨d, rfl⟩ := ih
    exact d.exists_withAtom (.set whole)
  | group _ inner ih _ =>
    obtain ⟨d, rfl⟩ := ih
    exact d.exists_withAtom (.group inner)
  | quantifier _ q ih =>
    obtain ⟨d, rfl⟩ := ih
    obtain ⟨a, behind⟩ := d.last.exists_quantified q
    exact ⟨⟨d.earlier, a⟩, by simp [Division.text, behind]⟩
  | bar _ ih =>
    obtain ⟨d, rfl⟩ := ih
    obtain ⟨a, none⟩ := empty
    exact ⟨⟨d.earlier ++ [d.last], a⟩, by simp [Division.text, none]⟩

/-! The marks of a division, one for each part. -/

/-- How tightly the marks of a text bind, if none of them is the first one. -/
def bindings (cs : List Char) : List Precedence :=
  (marks .top cs).map markPrecedence

theorem Returns.bindings_append {as : List Char} (h : Returns as) (bs : List Char) :
    bindings (as ++ bs) = bindings as ++ bindings bs := by
  rw [bindings, h.marks_append, List.map_append, bindings, bindings]

theorem Returns.flatten {ts : List (List Char)} (h : ∀ t ∈ ts, Returns t) : Returns ts.flatten := by
  induction ts with
  | nil => exact .nil
  | cons t ts ih =>
    exact (h t List.mem_cons_self).append (ih fun u hu => h u (List.mem_cons_of_mem _ hu))

theorem IsQuantifier.returns {q : List Char} (h : IsQuantifier q) : Returns q := by
  obtain ⟨c, single, -⟩ := h.single
  exact single.toReturns

theorem IsQuantifier.bindings_eq {q : List Char} (h : IsQuantifier q) : bindings q = [quantified] := by
  obtain ⟨c, single, binds⟩ := h.single
  rw [bindings, single.marks, List.map_singleton, binds]

theorem bindings_quantifiers {qs : List (List Char)} (h : ∀ q ∈ qs, IsQuantifier q) :
    bindings qs.flatten = qs.map fun _ => quantified := by
  induction qs with
  | nil => rfl
  | cons q qs ih =>
    have first : IsQuantifier q := h q List.mem_cons_self
    rw [List.flatten_cons, first.returns.bindings_append, first.bindings_eq,
      ih fun r hr => h r (List.mem_cons_of_mem _ hr)]
    rfl

theorem Item.returns (i : Item) : Returns i.text := by
  obtain ⟨c, single, -⟩ := i.isAtom.single
  exact single.toReturns.append (.flatten fun q hq => (i.areQuantifiers q hq).returns)

theorem Item.bindings_eq (i : Item) :
    bindings i.text = sequence :: i.quantifiers.map fun _ => quantified := by
  obtain ⟨c, single, binds⟩ := i.isAtom.single
  rw [Item.text, single.bindings_append, bindings_quantifiers i.areQuantifiers, bindings, single.marks,
    List.map_singleton, binds, List.singleton_append]

theorem bindings_items (is : List Item) :
    bindings (is.flatMap Item.text) =
      is.flatMap fun i => sequence :: i.quantifiers.map fun _ => quantified := by
  induction is with
  | nil => rfl
  | cons i is ih => rw [List.flatMap_cons, i.returns.bindings_append, i.bindings_eq, ih, List.flatMap_cons]

theorem Alternative.returns (a : Alternative) : Returns a.text := by
  refine .append (.flatten fun q hq => (a.areQuantifiers q hq).returns) (.flatten fun t ht => ?_)
  obtain ⟨i, -, rfl⟩ := List.mem_map.1 ht
  exact i.returns

/-! What the scan reports for a division. -/

theorem loosest_le {p : Precedence} {ps : List Precedence} (h : p ∈ ps) : loosest ps ≤ p := by
  have left : ∀ q r : Precedence, min q r ≤ q := by
    rintro (_ | _ | _ | _) (_ | _ | _ | _) <;> decide
  have right : ∀ q r : Precedence, min q r ≤ r := by
    rintro (_ | _ | _ | _) (_ | _ | _ | _) <;> decide
  induction ps with
  | nil => cases h
  | cons q ps ih =>
    rcases List.mem_cons.1 h with rfl | h
    · exact left p (loosest ps)
    · exact Nat.le_trans (right q (loosest ps)) (ih h)

theorem le_loosest {p : Precedence} {ps : List Precedence} (h : ∀ q ∈ ps, p ≤ q) : p ≤ loosest ps := by
  have both : ∀ q r : Precedence, p ≤ q → p ≤ r → p ≤ min q r := by
    rintro (_ | _ | _ | _) (_ | _ | _ | _) hq hr <;> first | exact hq | exact hr
  induction ps with
  | nil => cases p <;> decide
  | cons q ps ih =>
    exact both q (loosest ps) (h q List.mem_cons_self) (ih fun r hr => h r (List.mem_cons_of_mem _ hr))

theorem loosest_eq {p : Precedence} {ps : List Precedence} (mem : p ∈ ps) (least : ∀ q ∈ ps, p ≤ q) :
    loosest ps = p :=
  Precedence.rank_inj (Nat.le_antisymm (loosest_le mem) (le_loosest least))

theorem firstMarkPrecedence_of_sequence {c : Char} (h : markPrecedence c = sequence) :
    firstMarkPrecedence c = atom := by
  refine if_neg ?_
  rintro rfl
  cases h

/-- In a row of items the first atom decides nothing, its quantifiers and the other items do. -/
theorem precedenceOf_items (i : Item) (is : List Item) :
    precedenceOf ((i :: is).flatMap Item.text) =
      loosest ((i.quantifiers.map fun _ => quantified) ++
        is.flatMap fun j => sequence :: j.quantifiers.map fun _ => quantified) := by
  obtain ⟨c, single, binds⟩ := i.isAtom.single
  have row : Returns i.quantifiers.flatten :=
    .flatten fun q hq => (i.areQuantifiers q hq).returns
  rw [List.flatMap_cons, Item.text, List.append_assoc, precedenceOf, single.marks_append, single.marks,
    List.singleton_append, precedenceOfMarks, firstMarkPrecedence_of_sequence binds,
    Precedence.atom_min]
  change loosest (bindings _) = _
  rw [row.bindings_append, bindings_quantifiers i.areQuantifiers, bindings_items]

/-- A bar outside all groups is seen wherever it stands. -/
theorem Division.precedenceOf_bars {d : Division} (h : d.earlier ≠ []) :
    precedenceOf d.text = alternation := by
  obtain ⟨earlier, last⟩ := d
  cases earlier with
  | nil => exact absurd rfl h
  | cons a earlier =>
    by_contra loose
    refine bar_not_mem_of_precedence loose ?_
    have split : text ⟨a :: earlier, last⟩ = a.text ++ '|' :: text ⟨earlier, last⟩ := by
      simp [text]
    rw [split, a.returns.marks_append]
    exact List.mem_append_right _ List.mem_cons_self

theorem IsQuantifier.exists_start {q : List Char} (h : IsQuantifier q) :
    ∃ c rest, q = c :: rest ∧ startsQuantifier c = true := by
  rcases h with h | ⟨body, rfl, -⟩
  · simp only [List.mem_cons, List.not_mem_nil, or_false] at h
    rcases h with rfl | rfl | rfl <;> exact ⟨_, [], rfl, rfl⟩
  · exact ⟨'{', _, rfl, rfl⟩

/-- A self-contained text does not start with a quantifier. -/
theorem Alternative.leading_eq_nil {a : Alternative} (h : SelfContained a.text) : a.leading = [] := by
  obtain ⟨leading, items, areQuantifiers⟩ := a
  cases leading with
  | nil => rfl
  | cons q qs =>
    obtain ⟨c, rest, rfl, starts⟩ := (areQuantifiers q List.mem_cons_self).exists_start
    have plain : startsQuantifier c = false := h.start c (by simp [text])
    rw [starts] at plain
    cases plain

/-- One character at the top level makes an atom. -/
theorem IsAtom.precedenceOf_eq {cs : List Char} (h : IsAtom cs) : precedenceOf cs = atom := by
  obtain ⟨c, single, binds⟩ := h.single
  rw [precedenceOf, single.marks, precedenceOfMarks, firstMarkPrecedence_of_sequence binds]
  rfl

/-- The four classes, each with the divisions that it stands for. -/
theorem Division.precedence_cases (d : Division) (h : SelfContained d.text) :
    (d.earlier ≠ [] ∧ precedenceOf d.text = alternation) ∨
      d.earlier = [] ∧
        ((2 ≤ d.last.items.length ∧ precedenceOf d.text = sequence) ∨
          ((∃ i, d.last.items = [i] ∧ i.quantifiers ≠ []) ∧ precedenceOf d.text = quantified) ∨
          ((d.text = [] ∨ IsAtom d.text) ∧ d.last.items.length < 2 ∧
            (∀ i, d.last.items = [i] → i.quantifiers = []) ∧ precedenceOf d.text = atom)) := by
  by_cases bars : d.earlier = []
  · refine .inr ⟨bars, ?_⟩
    have only : d.text = d.last.text := by simp [text, bars]
    rw [only] at h
    have row : d.text = d.last.items.flatMap Item.text := by
      rw [only, Alternative.text, Alternative.leading_eq_nil h]
      rfl
    rw [row]
    rcases items : d.last.items with _ | ⟨i, _ | ⟨j, is⟩⟩
    · exact .inr (.inr ⟨.inl rfl, by simp, by simp, rfl⟩)
    · by_cases quantifiers : i.quantifiers = []
      · have alone : [i].flatMap Item.text = i.atom := by simp [Item.text, quantifiers]
        rw [alone]
        exact .inr (.inr ⟨.inr i.isAtom, by simp, by simp [quantifiers], i.isAtom.precedenceOf_eq⟩)
      · refine .inr (.inl ⟨⟨i, rfl, quantifiers⟩, ?_⟩)
        rw [precedenceOf_items, List.flatMap_nil, List.append_nil]
        obtain ⟨q, qs, some⟩ := List.exists_cons_of_ne_nil quantifiers
        exact loosest_eq (by simp [some]) (by simp +decide)
    · refine .inl ⟨by simp, ?_⟩
      rw [precedenceOf_items]
      refine loosest_eq (by simp) fun p hp => ?_
      have loose : p = sequence ∨ p = quantified := by
        simp only [List.mem_append, List.mem_map, List.mem_flatMap, List.mem_cons] at hp
        grind
      rcases loose with rfl | rfl <;> decide
  · exact .inl ⟨bars, precedenceOf_bars bars⟩

/-- A self-contained text can be divided at its bars into alternatives, and these into atoms with their
quantifiers. Whichever way that is done, the class that the scan reports says what the division is like.
-/
theorem precedence_exact (text : String) (h : SelfContained text.toList) :
    (∃ d : Division, d.text = text.toList) ∧ ∀ d : Division, d.text = text.toList →
      (precedence text = alternation ↔ d.earlier ≠ []) ∧
        (precedence text = sequence ↔ d.earlier = [] ∧ 2 ≤ d.last.items.length) ∧
        (precedence text = quantified ↔
          d.earlier = [] ∧ ∃ i, d.last.items = [i] ∧ i.quantifiers ≠ []) ∧
        (precedence text = atom ↔ text = "" ∨ IsAtom text.toList) := by
  refine ⟨h.balanced.exists_division, fun d chars => ?_⟩
  have same : precedence text = precedenceOf d.text := by rw [chars]; rfl
  have empty : text = "" ↔ d.text = [] := by simp [chars]
  have single : d.text = [] ∨ IsAtom d.text → precedenceOf d.text = atom := by
    rintro (none | single)
    · rw [none]
      rfl
    · exact single.precedenceOf_eq
  have notWhole : precedenceOf d.text ≠ atom → ¬ (d.text = [] ∨ IsAtom d.text) := mt single
  rw [same, empty, ← chars]
  rw [← chars] at h
  rcases d.precedence_cases h with ⟨bars, eq⟩ | ⟨noBars, ⟨many, eq⟩ | ⟨one, eq⟩ | ⟨whole, few, bare, eq⟩⟩
  · rw [eq] at notWhole ⊢
    simp [bars, notWhole]
  · have notOne : ∀ i, d.last.items ≠ [i] := by
      intro i one
      simp [one] at many
    rw [eq] at notWhole ⊢
    simp [noBars, many, notOne, notWhole]
  · have notMany : ¬ 2 ≤ d.last.items.length := by
      obtain ⟨i, items, -⟩ := one
      simp [items]
    rw [eq] at notWhole ⊢
    simp [noBars, one, notMany, notWhole]
  · have notQuantified : ¬ ∃ i, d.last.items = [i] ∧ i.quantifiers ≠ [] := by
      rintro ⟨i, one, quantifiers⟩
      exact quantifiers (bare i one)
    rw [eq]
    simp [noBars, whole, Nat.not_le.2 few, notQuantified]

/-- The bar and the brackets in the sets and in the group do not count, the interval belongs to the last
character. -/
theorem precedence_exact_rowOfAtoms :
    SelfContained "(?:a|[]|])[[a](]b\x7b2,\x7d".toList ∧
      ∀ d : Division, d.text = "(?:a|[]|])[[a](]b\x7b2,\x7d".toList →
        d.earlier = [] ∧ 2 ≤ d.last.items.length := by
  have contained : SelfContained "(?:a|[]|])[[a](]b\x7b2,\x7d".toList := by decide +kernel
  exact ⟨contained, fun d chars =>
    (((precedence_exact _ contained).2 d chars).2.1).1 (by decide)⟩

end TextMate.Regex
