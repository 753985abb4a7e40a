import TextMate.Proofs.Scanned

/-!
# Replacing a pattern by its text

What the compiler makes of a pattern depends on each part only through the part's text, precedence
and number of groups (`Agree.fill`), unless a highlight stands directly on the part: then it also
matters what kind of node the part is. A compiled pattern with self-contained leaves agrees with the
scan of its text, so the text may stand in its place.
-/

set_option autoImplicit false

namespace TextMate

open Regex (Precedence)

namespace Fragment

/-- What other fragments can see of a fragment. -/
def view (f : Fragment) : String × Precedence × Nat :=
  (f.text, f.precedence, f.captureCount)

variable {f f' g g' : Fragment}

theorem view_eq_iff :
    f.view = f'.view ↔
      f.text = f'.text ∧ f.precedence = f'.precedence ∧ f.captureCount = f'.captureCount := by
  simp [view]

theorem captureCount_guarded (least : Precedence) (f : Fragment) :
    (f.guarded least).captureCount = f.captureCount := by
  simp [captureCount]

theorem view_guarded (least : Precedence) (h : f.view = f'.view) :
    (f.guarded least).view = (f'.guarded least).view := by
  obtain ⟨text, precedence, count⟩ := view_eq_iff.1 h
  rw [view_eq_iff, captureCount_guarded, captureCount_guarded]
  refine ⟨?_, ?_, count⟩
  · rw [guarded, guarded, precedence]
    split <;> simp only [text]
  · rw [guarded, guarded, precedence]
    split
    · rfl
    · exact precedence

theorem view_joined (separator : String) (precedence : Precedence) (hf : f.view = f'.view)
    (hg : g.view = g'.view) :
    (f.joined g separator precedence).view = (f'.joined g' separator precedence).view := by
  obtain ⟨text, -, count⟩ := view_eq_iff.1 hf
  obtain ⟨text', -, count'⟩ := view_eq_iff.1 hg
  simp only [captureCount] at count count'
  simp [view, joined, captureCount, text, text', count, count']

theorem view_beside (hf : f.view = f'.view) (hg : g.view = g'.view) :
    (f.beside g).view = (f'.beside g').view := by
  have left := view_guarded .sequence hf
  have right := view_guarded .sequence hg
  obtain ⟨text, precedence, -⟩ := view_eq_iff.1 left
  obtain ⟨text', precedence', -⟩ := view_eq_iff.1 right
  rw [beside, beside, adjoined, adjoined, text, precedence, text', precedence']
  exact view_joined _ _ left right

theorem view_either (hf : f.view = f'.view) (hg : g.view = g'.view) :
    (f.either g).view = (f'.either g').view :=
  view_joined _ _ hf hg

theorem view_inGroup (id id' : CaptureId) (h : f.view = f'.view) :
    (f.inGroup id).view = (f'.inGroup id').view := by
  obtain ⟨text, -, count⟩ := view_eq_iff.1 h
  simp only [captureCount] at count
  simp [view, inGroup, captureCount, text, count]

theorem view_looked (kind : Look) (h : f.view = f'.view) :
    (f.looked kind).view = (f'.looked kind).view := by
  obtain ⟨text, -, count⟩ := view_eq_iff.1 h
  simp only [captureCount] at count
  simp [view, looked, captureCount, text, count]

theorem view_quantified (q : String) (h : f.view = f'.view) :
    (f.quantified q).view = (f'.quantified q).view := by
  obtain ⟨text, -, count⟩ := view_eq_iff.1 h
  simp only [captureCount] at count
  simp [view, quantified, captureCount, text, count]

end Fragment

/-- The same fault, or fragments that no other fragment can tell apart. -/
def Agree (x y : Except Fault Fragment) : Prop :=
  x.map Fragment.view = y.map Fragment.view

namespace Agree

variable {x x' y y' : Except Fault Fragment}

theorem refl (x : Except Fault Fragment) : Agree x x := rfl

theorem ok_iff {f f' : Fragment} : Agree (.ok f) (.ok f') ↔ f.view = f'.view := by
  simp [Agree, Except.map]

/-- Continuations that agree on fragments that look the same. -/
theorem bind {k k' : Fragment → Except Fault Fragment} (h : Agree x x')
    (hk : ∀ f f', f.view = f'.view → Agree (k f) (k' f')) : Agree (x >>= k) (x' >>= k') := by
  cases x with
  | error fault =>
    cases x' with
    | error fault' =>
      obtain rfl : fault = fault' := by simpa [Agree, Except.map] using h
      rfl
    | ok f' => simp [Agree, Except.map] at h
  | ok f =>
    cases x' with
    | error fault' => simp [Agree, Except.map] at h
    | ok f' => exact hk f f' (ok_iff.1 h)

theorem repeated (q : String) {f f' : Fragment} (h : f.view = f'.view) :
    Agree (f.repeated q) (f'.repeated q) := by
  have inner := Fragment.view_guarded .atom h
  obtain ⟨text, -, -⟩ := Fragment.view_eq_iff.1 inner
  rw [Fragment.repeated, Fragment.repeated, text]
  split
  · exact refl _
  · exact ok_iff.2 (Fragment.view_quantified q inner)

end Agree

/-- A pattern with places left open in it. -/
inductive Context where
  /-- The open place. -/
  | hole
  | fixed (p : Pattern)
  | sequence (first second : Context)
  | alternation (first second : Context)
  | repetition (element : Context) (min : Nat) (max : Option Nat)
  | capture (element : Context) (name : String) (serial : Nat)
  | look (kind : Look) (element : Context)
  | tag (element : Context) (scopes : List Scope) (serial : Nat)
  deriving DecidableEq, Repr

namespace Context

/-- The pattern with `p` at every open place. -/
def fill (p : Pattern) : Context → Pattern
  | hole => p
  | fixed q => q
  | sequence first second => .sequence (first.fill p) (second.fill p)
  | alternation first second => .alternation (first.fill p) (second.fill p)
  | repetition element min max => .repetition (element.fill p) min max
  | capture element name serial => .capture (element.fill p) name serial
  | look kind element => .look kind (element.fill p)
  | tag element scopes serial => .tag (element.fill p) scopes serial

/-- A highlight stands directly on an open place. -/
def tagsHole : Context → Bool
  | hole | fixed _ => false
  | sequence first second | alternation first second => first.tagsHole || second.tagsHole
  | repetition element _ _ | capture element _ _ | look _ element => element.tagsHole
  | tag element _ _ => element = hole || element.tagsHole

/-- The node that a highlight sees is never the open place. -/
theorem target?_fill (p q : Pattern) {c : Context} (h : c ≠ hole) (hc : c.tagsHole = false) :
    (c.fill p).target? = (c.fill q).target? := by
  induction c with
  | hole => exact absurd rfl h
  | tag element scopes serial ih =>
    simp only [tagsHole, Bool.or_eq_false_iff, decide_eq_false_iff_not] at hc
    simp only [fill, Pattern.target?, ih hc.1 hc.2]
  | _ => rfl

theorem untaggable?_fill (p q : Pattern) {c : Context} (h : c ≠ hole) :
    (c.fill p).untaggable? = (c.fill q).untaggable? := by
  cases c with
  | hole => exact absurd rfl h
  | _ => rfl

end Context

/-- Parts that agree may replace each other where no highlight stands on them directly. -/
theorem Agree.fill {p q : Pattern} (h : Agree p.compile q.compile) {c : Context}
    (hc : c.tagsHole = false) : Agree (c.fill p).compile (c.fill q).compile := by
  induction c with
  | hole => exact h
  | fixed r => exact .refl _
  | sequence first second ihf ihs =>
    simp only [Context.tagsHole, Bool.or_eq_false_iff] at hc
    refine (ihf hc.1).bind fun f f' hf => (ihs hc.2).bind fun g g' hg => ?_
    exact ok_iff.2 (Fragment.view_beside hf hg)
  | alternation first second ihf ihs =>
    simp only [Context.tagsHole, Bool.or_eq_false_iff] at hc
    refine (ihf hc.1).bind fun f f' hf => (ihs hc.2).bind fun g g' hg => ?_
    exact ok_iff.2 (Fragment.view_either hf hg)
  | repetition element min max ih =>
    simp only [Context.fill, Pattern.compile]
    cases Regex.quantifier min max with
    | error fault => exact .refl _
    | ok q => exact (ih hc).bind fun f f' hf => .repeated q hf
  | capture element name serial ih =>
    exact (ih hc).bind fun f f' hf => ok_iff.2 (Fragment.view_inGroup _ _ hf)
  | look kind element ih =>
    exact (ih hc).bind fun f f' hf => ok_iff.2 (Fragment.view_looked kind hf)
  | tag element scopes serial ih =>
    simp only [Context.tagsHole, Bool.or_eq_false_iff, decide_eq_false_iff_not] at hc
    simp only [Context.fill, Pattern.compile, Context.target?_fill p q hc.1 hc.2,
      Context.untaggable?_fill p q hc.1]
    split
    · exact .refl _
    · exact (ih hc.2).bind fun f f' hf => ok_iff.2 hf
    · exact (ih hc.2).bind fun f f' hf => ok_iff.2 (Fragment.view_inGroup _ _ hf)

/-- A scan of the text of a compiled pattern finds the precedence and the number of groups that the
compiler has worked out, and the text may take the place of the pattern wherever no highlight stands
directly on it. -/
theorem compile_agrees_with_scan {p : Pattern} {f : Fragment} (h : p.compile = .ok f)
    (hp : p.SelfContained) :
    Regex.precedence f.text = f.precedence ∧ Regex.captureCount f.text = f.captureCount ∧
      ∀ c : Context, c.tagsHole = false →
        Agree (c.fill (.leaf f.text)).compile (c.fill p).compile := by
  have scan := scanned (builds_of_compile h) hp
  refine ⟨scan.precedence, scan.captureCount, fun c hc => Agree.fill ?_ hc⟩
  rw [h]
  refine Agree.ok_iff.2 (Fragment.view_eq_iff.2 ⟨rfl, scan.precedence, ?_⟩)
  exact (Scanned.leaf scan.selfContained).captureCount.symm.trans scan.captureCount

/-- `(a|)+` in a numbered group. -/
def capturedChoice : Pattern :=
  .capture (.repetition (.alternation (.leaf "a") (.leaf "")) 1 none) "x" 0

theorem capturedChoice_agrees_with_scan :
    capturedChoice.compile =
        .ok ⟨"((?:a|)+)", .atom, [some ⟨0, some "x"⟩], [⟨0, some "x"⟩], []⟩ ∧
      capturedChoice.SelfContained ∧
      Regex.precedence "((?:a|)+)" = .atom ∧ Regex.captureCount "((?:a|)+)" = 1 ∧
      ∀ c : Context, c.tagsHole = false →
        Agree (c.fill (.leaf "((?:a|)+)")).compile (c.fill capturedChoice).compile :=
  ⟨by rfl, by decide,
    compile_agrees_with_scan (p := capturedChoice)
      (f := ⟨"((?:a|)+)", .atom, [some ⟨0, some "x"⟩], [⟨0, some "x"⟩], []⟩) (by rfl) (by decide)⟩

end TextMate
