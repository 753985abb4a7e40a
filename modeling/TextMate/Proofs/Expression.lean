import TextMate.Proofs.Syntax

/-!
# The expression of a regex

An expression is a row of pieces, so that concatenation is to append, and alternatives are listed
without regard to how bars were nested. A group `(?:` only shows how its text is to be read and is
not part of the expression. `Tree.expr` gives the expression that a tree stands for, and the main
statements tell how it depends on the parts of the tree: two texts in a row (`expr_append`), a bar
between two texts (`expr_bar`), and a quantifier behind a single atom (`expr_quantifier`).
-/

set_option autoImplicit false

namespace TextMate.Regex

inductive Piece where
  | char (c : Char)
  | escape (c : Char)
  | set (body : List Char)
  | group (head : List Char) (body : List Piece)
  /-- Under a run of quantifiers. `a+?` is under two at once, and `(?:a+)?` under one at a time. -/
  | repeated (body : List Piece) (quantifiers : List (List Char))
  | choice (alternatives : List (List Piece))
  deriving Repr

/-- What a regex says: pieces in a row. -/
abbrev Expr := List Piece

namespace Expr

/-- The alternatives of an expression. -/
def alternatives : Expr → List Expr
  | [.choice as] => as
  | e => [e]

/-- Either of two expressions. -/
def either (e f : Expr) : Expr :=
  [.choice (e.alternatives ++ f.alternatives)]

/-- An expression in a group. -/
def grouped (head : List Char) (e : Expr) : Expr :=
  if head = ['?', ':'] then e else [.group head e]

end Expr

/-- A tree that is gone through from left to right. -/
structure Parts where
  /-- The alternatives before the last bar, if there is a bar. -/
  earlier : Option (List Expr)
  /-- The last alternative up to its last atom. -/
  pieces : Expr
  /-- The last atom. -/
  atom : Expr
  /-- The quantifiers behind the last atom. -/
  quantifiers : List (List Char)

namespace Parts

def start : Parts := ⟨none, [], [], []⟩

/-- The last atom with its quantifiers. -/
def item (p : Parts) : Expr :=
  if p.quantifiers = [] then p.atom else [.repeated p.atom p.quantifiers]

/-- The last alternative. -/
def last (p : Parts) : Expr :=
  p.pieces ++ p.item

/-- All alternatives. -/
def alternatives (p : Parts) : List Expr :=
  p.earlier.getD [] ++ p.last.alternatives

/-- The expression of all parts. -/
def expr (p : Parts) : Expr :=
  if p.earlier.isSome then [.choice p.alternatives] else p.last

def withAtom (p : Parts) (e : Expr) : Parts :=
  ⟨p.earlier, p.last, e, []⟩

def withQuantifier (p : Parts) (q : List Char) : Parts :=
  ⟨p.earlier, p.pieces, p.atom, p.quantifiers ++ [q]⟩

def withBar (p : Parts) : Parts :=
  ⟨some p.alternatives, [], [], []⟩

@[simp] theorem earlier_withAtom (p : Parts) (e : Expr) : (p.withAtom e).earlier = p.earlier := rfl

@[simp] theorem earlier_withQuantifier (p : Parts) (q : List Char) :
    (p.withQuantifier q).earlier = p.earlier := rfl

/-- The parts `q` behind the parts `p`, if no bar is among `q`. -/
def behind (p q : Parts) : Parts :=
  ⟨p.earlier, p.last ++ q.pieces, q.atom, q.quantifiers⟩

theorem last_behind (p q : Parts) : (p.behind q).last = p.last ++ q.last := by
  simp only [behind, last, item, List.append_assoc]

theorem withAtom_behind (p q : Parts) (e : Expr) :
    (p.behind q).withAtom e = p.behind (q.withAtom e) := by
  rw [withAtom, last_behind]
  rfl

theorem withAtom_eq_behind (p : Parts) (e : Expr) : p.withAtom e = p.behind (start.withAtom e) := by
  simp [behind, withAtom, last, item, start]

/-- The alternatives do not depend on whether they are taken as one expression. -/
theorem alternatives_expr (p : Parts) : p.expr.alternatives = p.alternatives := by
  obtain ⟨earlier, pieces, atom, quantifiers⟩ := p
  cases earlier <;> rfl

end Parts

namespace Tree

/-- Goes through a tree behind the parts `p`. -/
def partsFrom (p : Parts) : Tree → Parts
  | empty => p
  | char before c => (before.partsFrom p).withAtom [.char c]
  | escape before c => (before.partsFrom p).withAtom [.escape c]
  | set before body => (before.partsFrom p).withAtom [.set body]
  | group before head body =>
    (before.partsFrom p).withAtom (Expr.grouped head (body.partsFrom .start).expr)
  | quantifier before q => (before.partsFrom p).withQuantifier q
  | bar before => (before.partsFrom p).withBar

def parts (t : Tree) : Parts := t.partsFrom .start

/-- The expression that a tree stands for. -/
def expr (t : Tree) : Expr := t.parts.expr

theorem partsFrom_append (p : Parts) (s t : Tree) :
    (s.append t).partsFrom p = t.partsFrom (s.partsFrom p) := by
  induction t with
  | empty => rfl
  | char _ _ ih | escape _ _ ih | set _ _ ih | quantifier _ _ ih | bar _ ih =>
    simp only [append, partsFrom, ih]
  | group _ _ _ ih _ => simp only [append, partsFrom, ih]

/-- Without a bar no alternative ends. -/
theorem earlier_partsFrom (p : Parts) {t : Tree} (h : .bar ∉ t.kinds) :
    (t.partsFrom p).earlier = p.earlier := by
  induction t with
  | empty => rfl
  | bar before ih => simp [kinds] at h
  | char _ _ ih | escape _ _ ih | set _ _ ih | quantifier _ _ ih =>
    simp only [kinds, List.mem_append, not_or] at h
    simp only [partsFrom, Parts.earlier_withAtom, Parts.earlier_withQuantifier]
    exact ih h.1
  | group _ _ _ ih _ =>
    simp only [kinds, List.mem_append, not_or] at h
    exact ih h.1

theorem kinds_eq_nil_iff {t : Tree} : t.kinds = [] ↔ t = empty := by
  cases t <;> simp [kinds]

/-- The same atom behind a tree that is read behind `p`, or alone. -/
theorem withAtom_partsFrom (p : Parts) {before : Tree}
    (h : before ≠ empty → before.partsFrom p = p.behind before.parts) (e : Expr) :
    (before.partsFrom p).withAtom e = p.behind (before.parts.withAtom e) := by
  by_cases first : before = empty
  · subst first
    exact Parts.withAtom_eq_behind p e
  · rw [h first, Parts.withAtom_behind]

theorem row_of_append {ks : List Kind} {k : Kind} (hbar : .bar ∉ ks ++ [k])
    (hstart : (ks ++ [k]).head? ≠ some .quantifier) :
    .bar ∉ ks ∧ ks.head? ≠ some .quantifier := by
  refine ⟨fun h => hbar (List.mem_append_left _ h), ?_⟩
  cases ks with
  | nil => nofun
  | cons j ks => exact hstart

/-- A tree without a bar that does not begin with a quantifier is read the same behind other parts. -/
theorem partsFrom_eq_behind (p : Parts) {t : Tree} (hbar : .bar ∉ t.kinds)
    (hstart : t.kinds.head? ≠ some .quantifier) (hne : t ≠ empty) :
    t.partsFrom p = p.behind t.parts := by
  induction t with
  | empty => exact absurd rfl hne
  | bar before ih => simp [kinds] at hbar
  | char _ _ ih | escape _ _ ih | set _ _ ih =>
    have row := row_of_append hbar hstart
    exact withAtom_partsFrom p (ih row.1 row.2) _
  | group before head body ih _ =>
    have row := row_of_append hbar hstart
    exact withAtom_partsFrom p (ih row.1 row.2) _
  | quantifier before q ih =>
    have row := row_of_append hbar hstart
    have nonempty : before ≠ empty := by
      rintro rfl
      exact hstart rfl
    rw [partsFrom, ih row.1 row.2 nonempty]
    rfl

/-- Two texts in a row that are read as one alternative. -/
theorem expr_append {s t : Tree} (hs : .bar ∉ s.kinds) (ht : .bar ∉ t.kinds)
    (hstart : t.kinds.head? ≠ some .quantifier) : (s.append t).expr = s.expr ++ t.expr := by
  by_cases nonempty : t = empty
  · subst nonempty
    exact (List.append_nil s.expr).symm
  · have earlier {t : Tree} (h : .bar ∉ t.kinds) : t.parts.earlier = none :=
      earlier_partsFrom .start h
    have row : (s.append t).parts = s.parts.behind t.parts := by
      rw [parts, partsFrom_append]
      exact partsFrom_eq_behind s.parts ht hstart nonempty
    simp only [expr, row, Parts.expr, Parts.last_behind]
    simp [Parts.behind, earlier hs, earlier ht]

/-- Behind a bar a tree is read as at the start. -/
theorem partsFrom_bar (as : List Expr) (t : Tree) :
    t.partsFrom ⟨some as, [], [], []⟩ =
      ⟨some (as ++ t.parts.earlier.getD []), t.parts.pieces, t.parts.atom,
        t.parts.quantifiers⟩ := by
  induction t with
  | empty => simp [partsFrom, parts, Parts.start]
  | char _ _ ih | escape _ _ ih | set _ _ ih | quantifier _ _ ih =>
    simp only [partsFrom, parts, ih]
    rfl
  | group _ _ _ ih _ =>
    simp only [partsFrom, parts, ih]
    rfl
  | bar _ ih =>
    simp only [partsFrom, parts, ih]
    simp [Parts.withBar, Parts.alternatives, Parts.last, Parts.item]

/-- A bar between two texts. -/
theorem expr_bar (s t : Tree) : (s.bar.append t).expr = s.expr.either t.expr := by
  have row : (s.bar.append t).parts = ⟨some (s.parts.alternatives ++ t.parts.earlier.getD []),
      t.parts.pieces, t.parts.atom, t.parts.quantifiers⟩ := by
    rw [parts, partsFrom_append]
    exact partsFrom_bar _ t
  have left : s.expr.alternatives = s.parts.alternatives := s.parts.alternatives_expr
  have right : t.expr.alternatives = t.parts.alternatives := t.parts.alternatives_expr
  rw [expr, row, Expr.either, left, right]
  simp [Parts.expr, Parts.alternatives, Parts.last, Parts.item]

/-- A single atom under a quantifier. -/
theorem expr_quantifier {t : Tree} (h : t.kinds = [.atom]) (q : List Char) :
    (quantifier t q).expr = [.repeated t.expr [q]] := by
  have single {before : Tree} (hb : before.kinds ++ [Kind.atom] = [.atom]) : before = empty :=
    kinds_eq_nil_iff.1 (by simpa using hb)
  have last := congrArg List.getLast? h
  cases t with
  | empty => simp [kinds] at last
  | bar before => simp [kinds] at last
  | quantifier before q => simp [kinds] at last
  | char before c =>
    obtain rfl := single h
    rfl
  | escape before c =>
    obtain rfl := single h
    rfl
  | set before body =>
    obtain rfl := single h
    rfl
  | group before head body =>
    obtain rfl := single h
    simp [expr, parts, partsFrom, Parts.expr, Parts.withQuantifier, Parts.withAtom, Parts.start,
      Parts.last, Parts.item]

/-- A group alone. -/
theorem expr_group (head : List Char) (t : Tree) :
    (group empty head t).expr = Expr.grouped head t.expr := by
  have alone (e : Expr) : (Parts.start.withAtom e).expr = e := by
    simp [Parts.expr, Parts.withAtom, Parts.start, Parts.last, Parts.item]
  exact alone _

end Tree

end TextMate.Regex
