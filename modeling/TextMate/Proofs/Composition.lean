import TextMate.Fragment
import TextMate.Proofs.Marks
import TextMate.Proofs.Openings

/-!
# Scanning what is put together

The scan carries open brackets, escapes and intervals from one character to the next, but nothing of that
passes the end of a self-contained text. So what the scan reports for two texts in a row, for a choice between
them, for a group around a text and for a text under quantifiers follows from its reports on the parts
(`scan_composes`).
-/

set_option autoImplicit false

namespace TextMate.Regex

open Precedence (alternation sequence quantified atom)

/-- The scan leaves nothing of the text open, and it reports this precedence and so many groups. -/
structure ScansAs (text : String) (p : Precedence) (n : Nat) : Prop where
  selfContained : SelfContained text.toList
  precedence : precedence text = p
  captureCount : captureCount text = n

/-- Quantifiers in a row. A second one says how eagerly the first one repeats. -/
inductive QuantifierRow : List Char → Prop where
  | single {q : List Char} : IsQuantifier q → QuantifierRow q
  | append {qs q : List Char} : QuantifierRow qs → IsQuantifier q → QuantifierRow (qs ++ q)

namespace ScansAs

variable {a b : String} {p r : Precedence} {m n : Nat}

theorem of_toList {cs : List Char} (chars : a.toList = cs) (h : SelfContained cs) (hp : precedenceOf cs = p)
    (hn : captureCountOf cs = n) : ScansAs a p n := by
  subst chars
  exact ⟨h, hp, hn⟩

theorem of_selfContained (h : SelfContained a.toList) :
    ScansAs a (Regex.precedence a) (Regex.captureCount a) :=
  ⟨h, rfl, rfl⟩

theorem precedenceOf_eq (h : ScansAs a p m) : precedenceOf a.toList = p :=
  h.precedence

theorem captureCountOf_eq (h : ScansAs a p m) : captureCountOf a.toList = m :=
  h.captureCount

/-- Two texts in a row. An empty one leaves the precedence of the other as it is. -/
theorem append (ha : ScansAs a p m) (hb : ScansAs b r n) :
    ScansAs (a ++ b) (if a = "" then r else if b = "" then p else min p (min sequence r)) (m + n) := by
  refine of_toList String.toList_append (ha.selfContained.append hb.selfContained) ?_ ?_
  · split
    · next empty =>
      rw [empty]
      exact hb.precedence
    · next nonempty =>
      split
      · next empty =>
        rw [empty, String.toList_empty, List.append_nil]
        exact ha.precedence
      · next nonempty' =>
        rw [precedenceOf_append ha.selfContained hb.selfContained
          (mt String.toList_eq_nil_iff.1 nonempty) (mt String.toList_eq_nil_iff.1 nonempty'),
          ha.precedenceOf_eq, hb.precedenceOf_eq]
  · rw [captureCountOf_append ha.selfContained, ha.captureCountOf_eq, hb.captureCountOf_eq]

/-- A choice between two texts, which may be empty. -/
theorem either (ha : ScansAs a p m) (hb : ScansAs b r n) :
    ScansAs (a ++ "|" ++ b) alternation (m + n) := by
  have chars : (a ++ "|" ++ b).toList = a.toList ++ '|' :: b.toList := by simp
  refine of_toList chars (ha.selfContained.append (SelfContained.bar.append hb.selfContained))
    (precedenceOf_bar ha.selfContained _) ?_
  have bar : captureCountOf ('|' :: b.toList) = captureCountOf b.toList :=
    (captureCountOf_append SelfContained.bar b.toList).trans (Nat.zero_add _)
  rw [captureCountOf_append ha.selfContained, bar, ha.captureCountOf_eq, hb.captureCountOf_eq]

/-- A numbered group around a text. -/
theorem numbered (ha : ScansAs a p m) : ScansAs ("(" ++ a ++ ")") atom (m + 1) := by
  have chars : ("(" ++ a ++ ")").toList = ['('] ++ (a.toList ++ [')']) := by simp
  refine of_toList chars (ha.selfContained.wrapped (by decide))
    (precedenceOf_wrapped ha.selfContained (by decide)) ?_
  rw [captureCountOf_numbered ha.selfContained.head?_ne, ha.captureCountOf_eq]

/-- Any other group around a text. -/
theorem unnumbered (ha : ScansAs a p m) {o : String} (ho : o.toList ∈ groupOpenings)
    (hn : o.toList ≠ ['(']) : ScansAs (o ++ a ++ ")") atom m := by
  have chars : (o ++ a ++ ")").toList = o.toList ++ (a.toList ++ [')']) := by simp
  refine of_toList chars (ha.selfContained.wrapped ho) (precedenceOf_wrapped ha.selfContained ho) ?_
  rw [captureCountOf_unnumbered ho hn, ha.captureCountOf_eq]

theorem guarded (ha : ScansAs a p m) : ScansAs ("(?:" ++ a ++ ")") atom m :=
  ha.unnumbered (by decide) (by decide)

theorem looked (ha : ScansAs a p m) (kind : Look) :
    ScansAs (Fragment.lookOpening kind ++ a ++ ")") atom m := by
  cases kind <;> exact ha.unnumbered (by decide) (by decide)

/-- A quantifier behind a text. -/
theorem quantified (ha : ScansAs a p m) (nonempty : a ≠ "") {q : String} (hq : IsQuantifier q.toList) :
    ScansAs (a ++ q) (min p quantified) m := by
  have some : a.toList ≠ [] := mt String.toList_eq_nil_iff.1 nonempty
  refine of_toList String.toList_append (ha.selfContained.quantified some hq) ?_ ?_
  · rw [precedenceOf_quantified ha.selfContained some hq, ha.precedenceOf_eq]
  · rw [captureCountOf_append ha.selfContained, captureCountOf_quantifier hq, ha.captureCountOf_eq,
      Nat.add_zero]

/-- Each quantifier of a row stands behind a text that is not empty, and only the first one counts. -/
theorem quantifiedBy (ha : ScansAs a p m) (nonempty : a ≠ "") {qs : List Char} (h : QuantifierRow qs) :
    ScansAs (a ++ String.ofList qs) (min p .quantified) m := by
  induction h with
  | single hq => exact ha.quantified nonempty (by rwa [String.toList_ofList])
  | @append qs q _ hq ih =>
    have behind : a ++ String.ofList (qs ++ q) = a ++ String.ofList qs ++ String.ofList q := by
      rw [String.ofList_append, String.append_assoc]
    have twice : min (min p .quantified) .quantified = min p .quantified := by cases p <;> rfl
    have row := ih.quantified (by simp [nonempty]) (q := String.ofList q) (by rwa [String.toList_ofList])
    rwa [twice, ← behind] at row

end ScansAs

/-- What the scan reports for texts that are put together from `a` and `b`. -/
structure Composes (a b : String) : Prop where
  row : ScansAs (a ++ b)
    (if a = "" then precedence b else if b = "" then precedence a
      else min (precedence a) (min sequence (precedence b)))
    (captureCount a + captureCount b)
  choice : ScansAs (a ++ "|" ++ b) alternation (captureCount a + captureCount b)
  numbered : ScansAs ("(" ++ a ++ ")") atom (captureCount a + 1)
  guarded : ScansAs ("(?:" ++ a ++ ")") atom (captureCount a)
  looked : ∀ kind, ScansAs (Fragment.lookOpening kind ++ a ++ ")") atom (captureCount a)
  quantified : a ≠ "" → ∀ q : String, QuantifierRow q.toList →
    ScansAs (a ++ q) (min (precedence a) quantified) (captureCount a)

/-- The scan is compositional on self-contained texts. -/
theorem scan_composes {a b : String} (ha : SelfContained a.toList) (hb : SelfContained b.toList) :
    Composes a b := by
  have left := ScansAs.of_selfContained ha
  have right := ScansAs.of_selfContained hb
  refine ⟨left.append right, left.either right, left.numbered, left.guarded, left.looked, ?_⟩
  intro nonempty q row
  have behind := left.quantifiedBy nonempty row
  rwa [String.ofList_toList] at behind

/-- A bar, a set with parentheses in it, an escape and an assertion leave nothing behind at the seam. -/
theorem scan_composes_setBesideEscape :
    SelfContained "(x)|[)(]".toList ∧ SelfContained "\\|(?=(y))".toList ∧
      Composes "(x)|[)(]" "\\|(?=(y))" :=
  have left : SelfContained "(x)|[)(]".toList := by decide
  have right : SelfContained "\\|(?=(y))".toList := by decide
  ⟨left, right, scan_composes left right⟩

end TextMate.Regex
