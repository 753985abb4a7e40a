import TextMate.Proofs.Expression
import TextMate.Proofs.Scanned
import TextMate.Proofs.Slots

/-!
# Reading a compiled pattern

A reader inside an open group does what it would do alone (`Reader.run_onto`), so texts that can be
read may be put in a row, wrapped and quantified. The parentheses that the compiler adds are thereby
enough and none too many: the text of a compiled pattern is read as the expression that the pattern
describes.
-/

set_option autoImplicit false

namespace TextMate

namespace Regex

namespace Reader

/-- Puts the open groups of a reader, and what it has read inside them, behind what `r` has read. -/
def graft (r : Reader) : List OpenGroup → Tree → List OpenGroup × Tree
  | [], t => (r.enclosing, r.current.append t)
  | g :: outer, t =>
    (⟨(graft r outer g.before).2, g.head⟩ :: (graft r outer g.before).1, t)

/-- The reader `m` behind what `r` has read. -/
def onto (r m : Reader) : Reader :=
  ⟨(graft r m.enclosing m.current).1, (graft r m.enclosing m.current).2, m.unfinished⟩

variable {r m m' : Reader} {c : Char}

/-- What one character adds at the innermost level does not depend on what stands before it. -/
theorem onto_add (r : Reader) {f : Tree → Tree} (hf : ∀ s t : Tree, s.append (f t) = f (s.append t))
    (outer : List OpenGroup) (t : Tree) (u : Unfinished) :
    r.onto ⟨outer, f t, u⟩ = ⟨(graft r outer t).1, f (graft r outer t).2, u⟩ := by
  cases outer with
  | nil => simp only [onto, graft, hf]
  | cons g outer => rfl

theorem close_onto (r : Reader) (h : m.close = some m') : (r.onto m).close = some (r.onto m') := by
  obtain ⟨outer, t, unfinished⟩ := m
  cases outer with
  | nil => cases h
  | cons g outer =>
    cases h
    rw [onto_add r (f := fun s => .group s g.head t) (fun _ _ => rfl)]
    rfl

theorem read_onto (r : Reader) (h : m.read c = some m') : (r.onto m).read c = some (r.onto m') := by
  rcases read_cases c with ⟨u, -, reads⟩ | ⟨-, reads⟩ | ⟨f, adds, reads⟩
  · rw [reads] at h ⊢
    cases h
    rfl
  · rw [reads] at h ⊢
    exact close_onto r h
  · rw [reads] at h ⊢
    cases h
    exact congrArg some (onto_add r adds.append m.enclosing m.current .nothing).symm

theorem step_onto (r : Reader) (h : m.step c = some m') : (r.onto m).step c = some (r.onto m') := by
  obtain ⟨outer, t, unfinished⟩ := m
  cases unfinished with
  | nothing => exact read_onto r h
  | escape =>
    cases h
    exact congrArg some (onto_add r (f := fun s => .escape s c) (fun _ _ => rfl) outer t .nothing).symm
  | head hs =>
    cases hs with
    | nil =>
      simp only [step, onto] at h ⊢
      by_cases question : c = '?'
      · rw [if_pos question] at h ⊢
        cases h
        rfl
      · rw [if_neg question] at h ⊢
        exact read_onto r h
    | cons b hs =>
      simp only [step, onto] at h ⊢
      by_cases ends : endsHead c = true
      · rw [if_pos ends] at h ⊢
        cases h
        rfl
      rw [if_neg ends] at h ⊢
      by_cases headChar : isHeadChar c = true
      · rw [if_pos headChar] at h ⊢
        cases h
        rfl
      · rw [if_neg headChar] at h ⊢
        exact read_onto r h
  | set depth pending body =>
    cases h
    simp only [step, onto, readSet]
    split
    · exact congrArg some
        (onto_add r (f := fun s => .set s body) (fun _ _ => rfl) outer t .nothing).symm
    · rfl
  | interval body =>
    simp only [step, onto] at h ⊢
    by_cases close : c = '}'
    · rw [if_pos close] at h ⊢
      cases h
      exact congrArg some
        (onto_add r (f := fun s => .quantifier s _) (fun _ _ => rfl) outer t .nothing).symm
    · rw [if_neg close] at h ⊢
      cases h
      rfl

/-- A reader does the same behind what another one has read. -/
theorem run_onto (r : Reader) {cs : List Char} (h : m.run cs = some m') :
    (r.onto m).run cs = some (r.onto m') := by
  induction cs generalizing m with
  | nil =>
    cases h
    rfl
  | cons c rest ih =>
    obtain ⟨m₁, hstep, hrest⟩ := Option.bind_eq_some_iff.1 h
    rw [run, step_onto r hstep]
    exact ih hrest

/-- A text that can be read alone is read the same behind what `r` has read. -/
theorem run_reads {cs : List Char} {t : Tree} (h : Reads cs t) (outer : List OpenGroup) (s : Tree) :
    run ⟨outer, s, .nothing⟩ cs = some ⟨outer, s.append t, .nothing⟩ :=
  run_onto ⟨outer, s, .nothing⟩ h

end Reader

namespace Reads

variable {as bs cs : List Char} {s t : Tree}

theorem append (ha : Reads as s) (hb : Reads bs t) : Reads (as ++ bs) (s.append t) := by
  rw [Reads, Reader.run_append ha]
  exact Reader.run_reads hb [] s

/-- A bar between two texts. -/
theorem bar (ha : Reads as s) (hb : Reads bs t) : Reads (as ++ '|' :: bs) (s.bar.append t) := by
  rw [Reads, Reader.run_append ha]
  exact Reader.run_reads hb [] s.bar

/-- The body of a group and its `)`. -/
theorem run_close (h : Reads cs t) (head : List Char) :
    Reader.run ⟨[⟨.empty, head⟩], .empty, .nothing⟩ (cs ++ [')']) =
      some ⟨[], .group .empty head t, .nothing⟩ := by
  rw [Reader.run_append (Reader.run_reads h _ _), Tree.empty_append]
  rfl

/-- A group with a number. -/
theorem numbered (h : Reads cs t) (hs : cs.head? ≠ some '?') :
    Reads (['('] ++ (cs ++ [')'])) (.group .empty [] t) := by
  -- The first character of the body shows that the head is empty.
  have body : ∀ rest : List Char, rest.head? ≠ some '?' → rest ≠ [] →
      Reader.run ⟨[], .empty, .head []⟩ rest =
        Reader.run ⟨[⟨.empty, []⟩], .empty, .nothing⟩ rest := by
    intro rest hrest hne
    cases rest with
    | nil => exact absurd rfl hne
    | cons c rest =>
      have first : c ≠ '?' := fun hc => hrest (congrArg some hc)
      simp only [Reader.run, Reader.step, if_neg first]
      rfl
  have inner : (cs ++ [')']).head? ≠ some '?' := by
    cases cs with
    | nil => decide
    | cons c rest => exact hs
  exact (body _ inner (by simp)).trans (run_close h [])

/-- A group with a head. -/
theorem headed (h : Reads cs t) {head : List Char}
    (hs : Reader.start.run ('(' :: head) = some ⟨[⟨.empty, head⟩], .empty, .nothing⟩) :
    Reads (('(' :: head) ++ (cs ++ [')'])) (.group .empty head t) := by
  rw [Reads, Reader.run_append hs]
  exact run_close h head

theorem run_interval (t : Tree) (read : List Char) {body : List Char}
    (h : ∀ c ∈ body, isIntervalChar c = true) :
    Reader.run ⟨[], t, .interval read⟩ (body ++ ['}']) =
      some ⟨[], .quantifier t ('{' :: (read ++ body ++ ['}'])), .nothing⟩ := by
  induction body generalizing read with
  | nil => simp [Reader.run, Reader.step]
  | cons c rest ih =>
    have brace : c ≠ '}' := by
      rintro rfl
      have none := isIntervalChar_scanned '}' (by decide)
      rw [h '}' (by simp)] at none
      exact absurd none (by decide)
    have tail := ih (read ++ [c]) fun d hd => h d (by simp [hd])
    simp only [List.cons_append, Reader.run, Reader.step, if_neg brace, Option.bind_some, tail]
    simp

theorem quantifier (h : Reads cs t) {q : List Char} (hq : IsQuantifier q) :
    Reads (cs ++ q) (.quantifier t q) := by
  rw [Reads, Reader.run_append h]
  rcases hq with hq | ⟨body, rfl, hbody⟩
  · simp only [List.mem_cons, List.not_mem_nil, or_false] at hq
    rcases hq with rfl | rfl | rfl <;> rfl
  · exact run_interval t [] hbody

theorem kinds_eq (h : Reads cs t) (hc : SelfContained cs) :
    t.kinds = (marks .top cs).map Kind.ofStart := by
  obtain ⟨t', h', -, kinds⟩ := exists_reads hc
  rw [h.unique h', kinds]

end Reads

/-- A bar makes an alternation. -/
theorem bar_not_mem_of_precedence {ms : List Char} (h : precedenceOfMarks ms ≠ .alternation) :
    '|' ∉ ms := by
  intro hbar
  obtain ⟨as, bs, rfl⟩ := List.append_of_mem hbar
  have loose : loosest ((('|' :: bs)).map markPrecedence) = .alternation := alternation_min _
  cases as with
  | nil => exact h (alternation_min _)
  | cons a as =>
    rw [precedenceOfMarks_append (by simp), loose, Precedence.min_comm, alternation_min] at h
    exact h rfl

theorem eq_atom_of_min {p q : Precedence} (h : min p q = .atom) : p = .atom ∧ q = .atom := by
  revert h
  cases p <;> cases q <;> decide

/-- A single atom has one mark. -/
theorem marks_of_precedence_atom {m : Char} {ms : List Char}
    (h : precedenceOfMarks (m :: ms) = .atom) (hclose : ')' ∉ ms) : ms = [] ∧ m ≠ '|' := by
  constructor
  · cases ms with
    | nil => rfl
    | cons n ms =>
      have close : n ≠ ')' := fun hn => hclose (by simp [hn])
      have loose : markPrecedence n ≠ .atom := by
        unfold markPrecedence
        split
        · decide
        split
        · decide
        · decide
      rw [precedenceOfMarks, List.map_cons,
        show ∀ p ps, loosest (p :: ps) = min p (loosest ps) from fun _ _ => rfl] at h
      exact absurd (eq_atom_of_min (eq_atom_of_min h).2).1 loose
  · rintro rfl
    rw [precedenceOfMarks, show firstMarkPrecedence '|' = .alternation from rfl, alternation_min] at h
    cases h

end Regex

open Regex (Expr Reads Tree)

/-- The head of an assertion. -/
def Look.head : Look → List Char
  | ahead => ['?', '=']
  | notAhead => ['?', '!']
  | behind => ['?', '<', '=']
  | notBehind => ['?', '<', '!']

/-- The expression that a pattern describes. A leaf describes what its text is read as. -/
def Pattern.expr? : Pattern → Option Expr
  | leaf text => (Regex.read text).map Tree.expr
  | sequence first second => return (← first.expr?) ++ (← second.expr?)
  | alternation first second => return (← first.expr?).either (← second.expr?)
  | repetition element min max => do
    let q ← (Regex.quantifier min max).toOption
    return [.repeated (← element.expr?) [q.toList]]
  | capture element _ _ => return [.group [] (← element.expr?)]
  | look kind element => return [.group kind.head (← element.expr?)]
  | tag element _ _ =>
    if element.hasTarget then element.expr? else return [.group [] (← element.expr?)]

theorem run_lookHead (kind : Look) :
    Regex.Reader.start.run ('(' :: kind.head) =
      some ⟨[⟨.empty, kind.head⟩], .empty, .nothing⟩ := by
  cases kind <;> decide +kernel

/-- The text of `f` is read as the expression `e`. -/
structure ReadsAs (f : Fragment) (e : Expr) : Prop where
  scanned : Scanned f
  reads : ∃ t, Reads f.text.toList t ∧ t.expr = e

namespace ReadsAs

variable {f g : Fragment} {d e : Expr}

/-- What stands outside the groups of a fragment begins at the marks of its text. -/
theorem exists_tree (h : ReadsAs f e) :
    ∃ t, Reads f.text.toList t ∧ t.expr = e ∧
      t.kinds = (Regex.marks .top f.text.toList).map Regex.Kind.ofStart := by
  obtain ⟨t, ht, rfl⟩ := h.reads
  exact ⟨t, ht, rfl, ht.kinds_eq h.scanned.selfContained⟩

theorem bar_not_mem {ms : List Char} (h : '|' ∉ ms) : .bar ∉ ms.map Regex.Kind.ofStart := by
  intro hbar
  obtain ⟨c, hc, hkind⟩ := List.mem_map.1 hbar
  have ordinary : c ≠ '|' := fun eq => h (eq ▸ hc)
  simp only [Regex.Kind.ofStart, ordinary, if_false] at hkind
  split at hkind <;> cases hkind

/-- A fragment that is no alternation has no bar outside its groups. -/
theorem exists_row (h : ReadsAs f e) (tight : f.precedence ≠ .alternation) :
    ∃ t, Reads f.text.toList t ∧ t.expr = e ∧ .bar ∉ t.kinds ∧
      t.kinds.head? ≠ some .quantifier := by
  obtain ⟨t, ht, he, hkinds⟩ := h.exists_tree
  refine ⟨t, ht, he, ?_, ?_⟩
  · rw [hkinds]
    rw [← h.scanned.precedence] at tight
    exact bar_not_mem (Regex.bar_not_mem_of_precedence tight)
  · rw [hkinds]
    have start := h.scanned.selfContained.start
    cases hcs : f.text.toList with
    | nil => simp [Regex.marks]
    | cons c rest =>
      rw [hcs] at start
      have plain := start c rfl
      simp only [Regex.marks, if_true, List.map_cons, List.head?_cons, Regex.Kind.ofStart, plain]
      split <;> simp

/-- A fragment that is one atom is read as one. -/
theorem exists_atom (h : ReadsAs f e) (single : f.precedence = .atom) (nonempty : f.text ≠ "") :
    ∃ t, Reads f.text.toList t ∧ t.expr = e ∧ t.kinds = [.atom] := by
  obtain ⟨t, ht, he, hkinds⟩ := h.exists_tree
  refine ⟨t, ht, he, ?_⟩
  have contained := h.scanned.selfContained
  have precedence := h.scanned.precedence
  rw [single] at precedence
  have hne := Scanned.toList_ne_nil nonempty
  rw [hkinds]
  cases hcs : f.text.toList with
  | nil => exact absurd hcs hne
  | cons c rest =>
    rw [hcs] at contained precedence
    have plain := contained.start c rfl
    have close := Regex.close_not_mem_marks contained.allowed
    rw [Regex.precedenceOf] at precedence
    rw [Regex.marks, if_pos rfl] at precedence close ⊢
    obtain ⟨alone, bar⟩ :=
      Regex.marks_of_precedence_atom precedence fun h => close (List.mem_cons_of_mem _ h)
    rw [alone]
    simp [Regex.Kind.ofStart, bar, plain]

theorem guarded (h : ReadsAs f e) (least : Regex.Precedence) : ReadsAs (f.guarded least) e := by
  refine ⟨h.scanned.guarded least, ?_⟩
  obtain ⟨t, ht, rfl⟩ := h.reads
  unfold Fragment.guarded
  split
  · refine ⟨.group .empty ['?', ':'] t, ?_, Tree.expr_group _ t⟩
    have text : ("(?:" ++ f.text ++ ")").toList = ['(', '?', ':'] ++ (f.text.toList ++ [')']) := by
      simp
    rw [text]
    exact ht.headed rfl
  · exact ⟨t, ht, rfl⟩

theorem beside (hf : ReadsAs f d) (hg : ReadsAs g e) : ReadsAs (f.beside g) (d ++ e) := by
  refine ⟨hf.scanned.beside hg.scanned, ?_⟩
  obtain ⟨s, hs, rfl, hbar, -⟩ := (hf.guarded .sequence).exists_row (Scanned.precedence_guarded_ne f)
  obtain ⟨t, ht, rfl, hbar', hstart⟩ :=
    (hg.guarded .sequence).exists_row (Scanned.precedence_guarded_ne g)
  refine ⟨s.append t, ?_, Tree.expr_append hbar hbar' hstart⟩
  rw [Fragment.beside, Fragment.chars_adjoined]
  exact hs.append ht

theorem either (hf : ReadsAs f d) (hg : ReadsAs g e) : ReadsAs (f.either g) (d.either e) := by
  refine ⟨hf.scanned.either hg.scanned, ?_⟩
  obtain ⟨s, hs, rfl⟩ := hf.reads
  obtain ⟨t, ht, rfl⟩ := hg.reads
  refine ⟨s.bar.append t, ?_, Tree.expr_bar s t⟩
  rw [Fragment.chars_either]
  exact hs.bar ht

theorem quantified (hf : ReadsAs f e) (nonempty : f.text ≠ "") (single : f.precedence = .atom)
    {q : String} (hq : Regex.IsQuantifier q.toList) :
    ReadsAs (f.quantified q) [.repeated e [q.toList]] := by
  refine ⟨hf.scanned.quantified nonempty single hq, ?_⟩
  obtain ⟨t, ht, rfl, hkinds⟩ := hf.exists_atom single nonempty
  refine ⟨.quantifier t q.toList, ?_, Tree.expr_quantifier hkinds _⟩
  rw [Fragment.chars_quantified]
  exact ht.quantifier hq

theorem inGroup (hf : ReadsAs f e) (id : CaptureId) : ReadsAs (f.inGroup id) [.group [] e] := by
  refine ⟨hf.scanned.inGroup id, ?_⟩
  obtain ⟨t, ht, rfl⟩ := hf.reads
  refine ⟨.group .empty [] t, ?_, Tree.expr_group _ t⟩
  rw [Fragment.chars_inGroup]
  exact ht.numbered hf.scanned.selfContained.head?_ne

theorem highlight (hf : ReadsAs f e) (id : CaptureId) (scopes : List Scope) :
    ReadsAs (f.highlight id scopes) e :=
  ⟨hf.scanned.highlight id scopes, hf.reads⟩

theorem looked (hf : ReadsAs f e) (kind : Look) : ReadsAs (f.looked kind) [.group kind.head e] := by
  refine ⟨hf.scanned.looked kind, ?_⟩
  obtain ⟨t, ht, rfl⟩ := hf.reads
  have opening : (Fragment.lookOpening kind).toList = '(' :: kind.head := by cases kind <;> rfl
  refine ⟨.group .empty kind.head t, ?_, ?_⟩
  · rw [Fragment.chars_looked, opening]
    exact ht.headed (run_lookHead kind)
  · rw [Tree.expr_group]
    cases kind <;> rfl

end ReadsAs

/-- The fragment of a pattern is read as the expression of the pattern. -/
theorem readsAs_of_builds {p : Pattern} {f : Fragment} (h : Builds p f) (hp : p.SelfContained) :
    ∃ e, p.expr? = some e ∧ ReadsAs f e := by
  induction h with
  | leaf text =>
    have contained := hp text (by simp [Pattern.leaves])
    obtain ⟨t, ht, -, -⟩ := Regex.exists_reads contained
    refine ⟨t.expr, ?_, .leaf contained, t, ht, rfl⟩
    rw [Pattern.expr?, Regex.read_eq_some_iff.2 ht]
    rfl
  | sequence _ _ ihp ihq =>
    obtain ⟨hp, hq⟩ := Pattern.selfContained_sequence.1 hp
    obtain ⟨d, hd, hf⟩ := ihp hp
    obtain ⟨e, he, hg⟩ := ihq hq
    exact ⟨d ++ e, by simp [Pattern.expr?, hd, he], hf.beside hg⟩
  | alternation _ _ ihp ihq =>
    obtain ⟨hp, hq⟩ := Pattern.selfContained_alternation.1 hp
    obtain ⟨d, hd, hf⟩ := ihp hp
    obtain ⟨e, he, hg⟩ := ihq hq
    exact ⟨d.either e, by simp [Pattern.expr?, hd, he], hf.either hg⟩
  | repetition hq nonempty _ ih =>
    obtain ⟨e, he, hf⟩ := ih hp
    refine ⟨_, ?_, (hf.guarded .atom).quantified nonempty (Scanned.precedence_guarded_atom _)
      (Regex.isQuantifier_of_quantifier hq)⟩
    simp [Pattern.expr?, hq, he, Except.toOption]
  | capture name serial _ ih =>
    obtain ⟨e, he, hf⟩ := ih hp
    exact ⟨_, by simp [Pattern.expr?, he], hf.inGroup _⟩
  | look kind _ ih =>
    obtain ⟨e, he, hf⟩ := ih hp
    exact ⟨_, by simp [Pattern.expr?, he], hf.looked kind⟩
  | tag scopes serial target _ ih =>
    obtain ⟨e, he, hf⟩ := ih hp
    refine ⟨e, ?_, hf.highlight _ scopes⟩
    rw [Pattern.expr?, if_pos (Pattern.hasTarget_of_some target), he]
  | tagged scopes serial target _ _ ih =>
    obtain ⟨e, he, hf⟩ := ih hp
    refine ⟨[.group [] e], ?_, (hf.inGroup _).highlight _ scopes⟩
    rw [Pattern.expr?, if_neg (Pattern.not_hasTarget_of_none target), he]
    rfl

/-- The text of a compiled pattern with self-contained leaves is read as the expression that the
pattern describes. Literals and building blocks have such leaves. -/
theorem read_compile :
    (∀ text, (Pattern.literal text).SelfContained) ∧
      (∀ p ∈ Pattern.blocks, p.SelfContained) ∧
      (∀ words, (Pattern.keywords words).SelfContained) ∧
      ∀ (p : Pattern) (f : Fragment), p.compile = .ok f → p.SelfContained →
        ∃ t, Regex.read f.text = some t ∧ t.text = f.text.toList ∧ p.expr? = some t.expr := by
  refine ⟨Pattern.selfContained_literal, Pattern.selfContained_blocks,
    Pattern.selfContained_keywords, fun p f h hp => ?_⟩
  obtain ⟨e, he, hf⟩ := readsAs_of_builds (builds_of_compile h) hp
  obtain ⟨t, ht, rfl⟩ := hf.reads
  obtain ⟨t', ht', text, -⟩ := Regex.exists_reads hf.scanned.selfContained
  obtain rfl := ht.unique ht'
  exact ⟨t, Regex.read_eq_some_iff.2 ht, text, he⟩

/-- `(a|)(b+)?`, where neither pair of parentheses is part of the pattern. -/
def guardedParts : Pattern :=
  .sequence (.alternation (.leaf "a") (.leaf "")) (.repetition (.leaf "b+") 0 (some 1))

theorem read_compile_guardedParts :
    guardedParts.compile = .ok ⟨"(?:a|)(?:b+)?", .sequence, [], [], []⟩ ∧
      guardedParts.SelfContained ∧
      ∃ t, Regex.read "(?:a|)(?:b+)?" = some t ∧ t.text = "(?:a|)(?:b+)?".toList ∧
        guardedParts.expr? = some t.expr :=
  ⟨by rfl, by decide,
    read_compile.2.2.2 guardedParts ⟨"(?:a|)(?:b+)?", .sequence, [], [], []⟩ (by rfl) (by decide)⟩

end TextMate
