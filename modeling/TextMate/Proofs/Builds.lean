import TextMate.Pattern.Fragment

/-!
# How a fragment is built

`Builds p f` says that `f` is put together from the parts of `p`, node by node. It holds exactly if
`p` compiles to `f` (`builds_iff`), so a property of all fragments is proved with one case for each
kind of node.
-/

set_option autoImplicit false

namespace TextMate

inductive Builds : Pattern → Fragment → Prop where
  | leaf (text : String) : Builds (.leaf text) (.leaf text)
  | sequence {p q : Pattern} {f g : Fragment} :
      Builds p f → Builds q g → Builds (.sequence p q) (f.beside g)
  | alternation {p q : Pattern} {f g : Fragment} :
      Builds p f → Builds q g → Builds (.alternation p q) (f.either g)
  | repetition {p : Pattern} {f : Fragment} {min : Nat} {max : Option Nat} {quantifier : String} :
      Regex.quantifier min max = .ok quantifier → (f.guarded .atom).text ≠ "" → Builds p f →
      Builds (.repetition p min max) ((f.guarded .atom).quantified quantifier)
  | capture {p : Pattern} {f : Fragment} (name : String) (serial : Nat) :
      Builds p f → Builds (.capture p name serial) (f.inGroup ⟨serial, some name⟩)
  | look {p : Pattern} {f : Fragment} (kind : Look) : Builds p f → Builds (.look kind p) (f.looked kind)
  /-- A highlight on a capture, or on another highlight. -/
  | tag {p : Pattern} {f : Fragment} {id : CaptureId} (scopes : List Scope) (serial : Nat) :
      p.target? = some id → Builds p f → Builds (.tag p scopes serial) (f.highlight id scopes)
  /-- A highlight that opens a group of its own. -/
  | tagged {p : Pattern} {f : Fragment} (scopes : List Scope) (serial : Nat) :
      p.target? = none → p.untaggable? = none → Builds p f →
      Builds (.tag p scopes serial) ((f.inGroup ⟨serial, none⟩).highlight ⟨serial, none⟩ scopes)

theorem untaggable?_of_target? {p : Pattern} {id : CaptureId} (h : p.target? = some id) :
    p.untaggable? = none := by
  cases p <;> simp_all [Pattern.target?, Pattern.untaggable?]

theorem repeated_eq_ok_iff {f g : Fragment} {quantifier : String} :
    f.repeated quantifier = .ok g ↔
      (f.guarded .atom).text ≠ "" ∧ g = (f.guarded .atom).quantified quantifier := by
  unfold Fragment.repeated
  by_cases h : (f.guarded .atom).text = "" <;> simp [h, eq_comm]

theorem bind_eq_ok_iff {ε α β : Type} {x : Except ε α} {k : α → Except ε β} {b : β} :
    x >>= k = .ok b ↔ ∃ a, x = .ok a ∧ k a = .ok b := by
  cases x <;> simp [bind, Except.bind]

theorem bind_eq_error_iff {ε α β : Type} {x : Except ε α} {k : α → Except ε β} {e : ε} :
    x >>= k = .error e ↔ x = .error e ∨ ∃ a, x = .ok a ∧ k a = .error e := by
  cases x <;> simp [bind, Except.bind]

theorem builds_of_compile {p : Pattern} {f : Fragment} (h : p.compile = .ok f) : Builds p f := by
  induction p generalizing f with
  | leaf text =>
    cases h
    exact .leaf text
  | sequence p q ihp ihq =>
    obtain ⟨a, ha, h⟩ := bind_eq_ok_iff.1 h
    obtain ⟨b, hb, h⟩ := bind_eq_ok_iff.1 h
    cases h
    exact .sequence (ihp ha) (ihq hb)
  | alternation p q ihp ihq =>
    obtain ⟨a, ha, h⟩ := bind_eq_ok_iff.1 h
    obtain ⟨b, hb, h⟩ := bind_eq_ok_iff.1 h
    cases h
    exact .alternation (ihp ha) (ihq hb)
  | repetition p min max ih =>
    obtain ⟨q, hq, h⟩ := bind_eq_ok_iff.1 h
    obtain ⟨a, ha, h⟩ := bind_eq_ok_iff.1 h
    obtain ⟨nonempty, rfl⟩ := repeated_eq_ok_iff.1 h
    exact .repetition hq nonempty (ih ha)
  | capture p name serial ih =>
    obtain ⟨a, ha, h⟩ := bind_eq_ok_iff.1 h
    cases h
    exact .capture name serial (ih ha)
  | look kind p ih =>
    obtain ⟨a, ha, h⟩ := bind_eq_ok_iff.1 h
    cases h
    exact .look kind (ih ha)
  | tag p scopes serial ih =>
    rw [Pattern.compile] at h
    split at h
    · cases h
    · obtain ⟨a, ha, h⟩ := bind_eq_ok_iff.1 h
      cases h
      exact .tag scopes serial ‹_› (ih ha)
    · obtain ⟨a, ha, h⟩ := bind_eq_ok_iff.1 h
      cases h
      exact .tagged scopes serial ‹_› ‹_› (ih ha)

theorem compile_of_builds {p : Pattern} {f : Fragment} (h : Builds p f) : p.compile = .ok f := by
  induction h with
  | leaf text => rfl
  | sequence _ _ ihp ihq => simp [Pattern.compile, ihp, ihq, bind, Except.bind, pure, Except.pure]
  | alternation _ _ ihp ihq => simp [Pattern.compile, ihp, ihq, bind, Except.bind, pure, Except.pure]
  | repetition hq nonempty _ ih =>
    simp [Pattern.compile, hq, ih, bind, Except.bind, repeated_eq_ok_iff.2 ⟨nonempty, rfl⟩]
  | capture name serial _ ih => simp [Pattern.compile, ih, bind, Except.bind, pure, Except.pure]
  | look kind _ ih => simp [Pattern.compile, ih, bind, Except.bind, pure, Except.pure]
  | tag scopes serial target _ ih =>
    simp [Pattern.compile, untaggable?_of_target? target, target, ih, bind, Except.bind, pure,
      Except.pure]
  | tagged scopes serial target taggable _ ih =>
    simp [Pattern.compile, taggable, target, ih, bind, Except.bind, pure, Except.pure]

/-- A pattern compiles to the fragment that its parts are put together to. -/
theorem builds_iff {p : Pattern} {f : Fragment} : Builds p f ↔ p.compile = .ok f :=
  ⟨compile_of_builds, builds_of_compile⟩

/-! The characters of a fragment that is put together from others. -/

namespace Fragment

variable (f g : Fragment)

theorem chars_adjoined : (f.adjoined g).text.toList = f.text.toList ++ g.text.toList := by
  simp [adjoined, joined]

theorem chars_either : (f.either g).text.toList = f.text.toList ++ (['|'] ++ g.text.toList) := by
  simp [either, joined]

theorem chars_quantified (quantifier : String) :
    (f.quantified quantifier).text.toList = f.text.toList ++ quantifier.toList := by
  simp [quantified]

theorem chars_inGroup (id : CaptureId) :
    (f.inGroup id).text.toList = ['('] ++ (f.text.toList ++ [')']) := by
  simp [inGroup]

theorem chars_looked (kind : Look) :
    (f.looked kind).text.toList = (lookOpening kind).toList ++ (f.text.toList ++ [')']) := by
  simp [looked]

end Fragment

end TextMate
