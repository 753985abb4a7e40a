import TextMate.Proofs.Independence
import TextMate.Proofs.Segments

/-!
# File types

An extension loses the white space around it first and its leading dots second. White space behind the dots
comes to light only then and stays, so it stands in front of what is left (`normalExtension_text`). Where no
extension has such a gap the file types of a finished grammar are as they should be: none is empty, begins
with a dot or has white space at an end, and they are their own file types. Every gap breaks this
(`compile_fileTypes`).
-/

set_option autoImplicit false

namespace TextMate

open Unicode

namespace Text

/-- The characters at the start that have a property, and the rest. -/
theorem exists_split (p : Char → Bool) (cs : List Char) : ∃ front rest, cs = front ++ rest ∧
    (∀ c ∈ front, p c = true) ∧ ∀ c ∈ rest.head?, p c = false := by
  refine ⟨cs.takeWhile p, cs.dropWhile p, List.takeWhile_append_dropWhile.symm,
    List.all_eq_true.1 List.all_takeWhile, fun c head => ?_⟩
  have stop := List.head?_dropWhile_not p cs
  rwa [Option.mem_def.1 head] at stop

theorem exists_trimmed (cs : List Char) : ∃ before body after, cs = before ++ (body ++ after) ∧
    (∀ c ∈ before, isBlank c = true) ∧ (∀ c ∈ after, isBlank c = true) ∧ IsTrimmed body := by
  obtain ⟨before, rest, rfl, first, head⟩ := exists_split isBlank cs
  obtain ⟨after, body, back, last, stops⟩ := exists_split isBlank rest.reverse
  have split : rest = body.reverse ++ after.reverse := by
    rw [← List.reverse_append, ← back, List.reverse_reverse]
  refine ⟨before, body.reverse, after.reverse, by rw [split], first, by simpa using last, ?_, ?_⟩
  · intro c mem
    refine head c ?_
    rwa [split, List.head?_append_of_ne_nil _ (List.ne_nil_of_mem (List.mem_of_head? mem))]
  · rwa [List.getLast?_reverse]

end Text

open Text (IsTrimmed)

/-- An extension as it was given, in its parts: white space, dots, a gap, the stem and white space. -/
structure Extension where
  before : List Char
  dots : List Char
  /-- White space between the dots and the stem. -/
  gap : List Char
  stem : List Char
  after : List Char
  blank_before : ∀ c ∈ before, isBlank c = true
  areDots : ∀ c ∈ dots, c = '.'
  blank_gap : ∀ c ∈ gap, isBlank c = true
  blank_after : ∀ c ∈ after, isBlank c = true
  trimmed : IsTrimmed stem
  /-- A gap has dots in front of it and a stem behind it. -/
  between : gap ≠ [] → dots ≠ [] ∧ stem ≠ []
  /-- Dots at the start of the stem stand behind a gap. -/
  start : gap = [] → stem.head? ≠ some '.'

namespace Extension

/-- The extension as it was given. -/
def text (e : Extension) : String :=
  String.ofList (e.before ++ (e.dots ++ (e.gap ++ e.stem) ++ e.after))

/-- What is left of it. -/
def entry (e : Extension) : String :=
  String.ofList (e.gap ++ e.stem)

/-- The entries of extensions, one for each that has a stem. -/
def entries (given : List Extension) : List String :=
  (given.filter fun e => e.stem ≠ []).map entry

theorem isBlank_dot : isBlank '.' = false := by
  decide

/-- In a text without white space at its ends, white space behind the first dots is a gap. -/
theorem between_of_isTrimmed {dots gap stem : List Char} (trimmed : IsTrimmed (dots ++ (gap ++ stem)))
    (blank : ∀ c ∈ gap, isBlank c = true) (nonempty : gap ≠ []) : dots ≠ [] ∧ stem ≠ [] := by
  constructor
  · rintro rfl
    obtain ⟨c, cs, rfl⟩ := List.exists_cons_of_ne_nil nonempty
    have solid : isBlank c = false := trimmed.head c rfl
    rw [blank c List.mem_cons_self] at solid
    cases solid
  · rintro rfl
    rw [List.append_nil] at trimmed
    have last : (dots ++ gap).getLast? = some (gap.getLast nonempty) := by
      rw [List.getLast?_append_of_ne_nil _ nonempty, List.getLast?_eq_some_getLast nonempty]
    have solid := trimmed.last _ last
    rw [blank _ (List.getLast_mem nonempty)] at solid
    cases solid

/-- Every text is that of an extension. -/
theorem exists_text (text : String) : ∃ e : Extension, e.text = text := by
  obtain ⟨before, body, after, split, first, last, trimmed⟩ := Text.exists_trimmed text.toList
  obtain ⟨dots, rest, rfl, areDots, start⟩ := Text.exists_split (· == '.') body
  obtain ⟨gap, stem, rfl, blank, head⟩ := Text.exists_split isBlank rest
  have back : ∀ c ∈ stem.getLast?, isBlank c = false := by
    intro c mem
    refine trimmed.last c ?_
    rwa [← List.append_assoc,
      List.getLast?_append_of_ne_nil _ (List.ne_nil_of_mem (List.mem_of_getLast? mem))]
  refine ⟨⟨before, dots, gap, stem, after, first, by simpa using areDots, blank, last, ⟨head, back⟩,
    between_of_isTrimmed trimmed blank, ?_⟩, ?_⟩
  · rintro rfl dot
    have plain := start '.' dot
    cases plain
  · rw [Extension.text, ← split, String.ofList_toList]

theorem exists_texts (texts : List String) : ∃ given : List Extension, given.map text = texts := by
  induction texts with
  | nil => exact ⟨[], rfl⟩
  | cons t ts ih =>
    obtain ⟨e, rfl⟩ := exists_text t
    obtain ⟨given, rfl⟩ := ih
    exact ⟨e :: given, rfl⟩

section Parts

variable (e : Extension)

theorem gap_of_dots (none : e.dots = []) : e.gap = [] :=
  by_contra fun gap => (e.between gap).1 none

theorem gap_of_stem (none : e.stem = []) : e.gap = [] :=
  by_contra fun gap => (e.between gap).2 none

/-- The dots, the gap and the stem have no white space around them. -/
theorem isTrimmed_core : IsTrimmed (e.dots ++ (e.gap ++ e.stem)) where
  head c mem := by
    cases dots : e.dots with
    | nil =>
      rw [dots, e.gap_of_dots dots] at mem
      exact e.trimmed.head c mem
    | cons d ds =>
      have first : d = '.' := e.areDots d (by simp [dots])
      rw [dots, first] at mem
      cases mem
      exact isBlank_dot
  last c mem := by
    by_cases stem : e.stem = []
    · rw [stem, e.gap_of_stem stem, List.append_nil, List.append_nil] at mem
      rw [e.areDots c (List.mem_of_getLast? mem)]
      exact isBlank_dot
    · rw [← List.append_assoc, List.getLast?_append_of_ne_nil _ stem] at mem
      exact e.trimmed.last c mem

theorem head?_entry_ne : (e.gap ++ e.stem).head? ≠ some '.' := by
  cases gap : e.gap with
  | nil => exact e.start gap
  | cons c cs =>
    have blank : isBlank c = true := e.blank_gap c (by simp [gap])
    intro dot
    cases dot
    rw [isBlank_dot] at blank
    cases blank

theorem dropDots_of_head {cs : List Char} (h : cs.head? ≠ some '.') : cs.dropWhile (· == '.') = cs := by
  cases cs with
  | nil => rfl
  | cons c cs => exact List.dropWhile_cons_of_neg (by simpa using h)

/-- The white space around it and its dots are taken away, the gap is not. -/
theorem normalExtension_text : normalExtension e.text = e.entry := by
  have dots : ∀ c ∈ e.dots, (c == '.') = true := fun c mem => beq_iff_eq.2 (e.areDots c mem)
  rw [normalExtension, Text.trim, text, String.toList_ofList, String.toList_ofList,
    Text.trimChars_surrounded e.blank_before e.blank_after e.isTrimmed_core,
    List.dropWhile_append_of_pos dots, dropDots_of_head e.head?_entry_ne, entry]

/-- Once it stands in front, the gap is taken away, and dots behind it as well. -/
theorem normalExtension_entry :
    normalExtension e.entry = String.ofList (e.stem.dropWhile (· == '.')) := by
  have surrounded : Text.trimChars (e.gap ++ (e.stem ++ [])) = e.stem :=
    Text.trimChars_surrounded e.blank_gap (by simp) e.trimmed
  rw [List.append_nil] at surrounded
  rw [normalExtension, Text.trim, entry, String.toList_ofList, String.toList_ofList, surrounded]

theorem normalExtension_entry_eq_iff : normalExtension e.entry = e.entry ↔ e.gap = [] := by
  rw [normalExtension_entry, entry, String.ofList_inj]
  constructor
  · intro same
    have length := congrArg List.length same
    have shorter := (List.dropWhile_sublist (p := (· == '.')) (l := e.stem)).length_le
    rw [List.length_append] at length
    exact List.length_eq_zero_iff.1 (by omega)
  · intro gap
    rw [gap, dropDots_of_head (e.start gap), List.nil_append]

theorem entry_eq_empty_iff : e.entry = "" ↔ e.stem = [] := by
  rw [entry, ← String.toList_inj, String.toList_ofList, String.toList_empty, List.append_eq_nil_iff]
  exact and_iff_right_of_imp e.gap_of_stem

theorem isTrimmed_entry_iff : IsTrimmed e.entry.toList ↔ e.gap = [] := by
  rw [entry, String.toList_ofList]
  constructor
  · intro trimmed
    cases gap : e.gap with
    | nil => rfl
    | cons c cs =>
      have blank : isBlank c = true := e.blank_gap c (by simp [gap])
      rw [gap] at trimmed
      exact absurd ((trimmed.head c rfl).symm.trans blank) Bool.noConfusion
  · intro gap
    rw [gap]
    exact e.trimmed

/-- Without a gap there is no stem exactly if there are only dots and white space. -/
theorem stem_eq_nil_iff (gap : e.gap = []) :
    e.stem = [] ↔ ∀ c ∈ e.text.toList, c = '.' ∨ isBlank c = true := by
  rw [text, String.toList_ofList, gap, List.nil_append]
  constructor
  · intro stem c mem
    rw [stem, List.append_nil] at mem
    simp only [List.mem_append] at mem
    obtain mem | mem | mem := mem
    · exact .inr (e.blank_before c mem)
    · exact .inl (e.areDots c mem)
    · exact .inr (e.blank_after c mem)
  · intro bare
    cases stem : e.stem with
    | nil => rfl
    | cons c cs =>
      have head : e.stem.head? = some c := by rw [stem]; rfl
      obtain rfl | blank := bare c (by simp [stem])
      · exact absurd head (e.start gap)
      · exact absurd ((e.trimmed.head c head).symm.trans blank) Bool.noConfusion

end Parts

variable {given : List Extension}

theorem mem_entries_iff {f : String} : f ∈ entries given ↔ ∃ e ∈ given, e.stem ≠ [] ∧ e.entry = f := by
  simp [entries, and_assoc]

/-- A property of entries that asks for no gap holds of all of them if there is none. Where there is one,
there is an entry. -/
theorem forall_entries_iff {p : String → Prop} (each : ∀ e : Extension, p e.entry ↔ e.gap = []) :
    (∀ f ∈ entries given, p f) ↔ ∀ e ∈ given, e.gap = [] := by
  constructor
  · intro holds e mem
    by_contra gap
    have stem := (e.between gap).2
    exact gap ((each e).1 (holds _ (mem_entries_iff.2 ⟨e, mem, stem, rfl⟩)))
  · intro none f mem
    obtain ⟨e, listed, -, rfl⟩ := mem_entries_iff.1 mem
    exact (each e).2 (none e listed)

theorem normalExtensions_texts (given : List Extension) :
    normalExtensions (given.map text) = entries given := by
  have each : normalExtension ∘ text = entry := funext normalExtension_text
  rw [normalExtensions, List.map_map, each, List.filter_map, entries]
  congr 2
  funext e
  simp [e.entry_eq_empty_iff]

end Extension

variable {g : Grammar} {file : GrammarFile}

/-- Extensions bear on the file types only. -/
theorem compile_withFileTypes (h : g.compile = .ok file) (extensions : List String) :
    (g.withFileTypes extensions).compile =
      .ok { file with fileTypes := normalExtensions (g.fileTypes ++ extensions) } := by
  obtain ⟨s, named, rules⟩ := compile_eq_ok_iff.1 h
  obtain ⟨patterns, listed, made⟩ := Placed.bind_eq_ok_iff.1 rules
  obtain ⟨repository, entered, made⟩ := Placed.bind_eq_ok_iff.1 made
  cases made
  refine compile_eq_ok_iff.2 ⟨s, named, ?_⟩
  exact Placed.bind_eq_ok_iff.2 ⟨patterns, listed, Placed.bind_eq_ok_iff.2 ⟨repository, entered, rfl⟩⟩

theorem fileTypes_of_compile (h : g.compile = .ok file) :
    file.fileTypes = normalExtensions g.fileTypes := by
  have same : g.withFileTypes [] = g := by rw [Grammar.withFileTypes, List.append_nil]
  have again := compile_withFileTypes h []
  rw [same, h, List.append_nil] at again
  exact congrArg GrammarFile.fileTypes (Except.ok.inj again)

/-- A grammar holds the extensions of all calls about it, in their order. -/
theorem fileTypes_of_run {start : UInt32} {calls : List Call} {d : Desk} {x : Handle}
    (h : run start .empty calls = some d) (begun : d.grammars x = some g) :
    g.fileTypes = (Script.of x calls).fileTypes := by
  obtain ⟨m, made, rfl⟩ := run_eq h
  obtain ⟨g', found, rfl⟩ := Option.map_eq_some_iff.1 begun
  have described := describes_runWith made x
  rw [found] at described
  exact described.fileTypes

/-- Nothing is done to extensions that are normalised. -/
theorem normalExtensions_eq_self_iff {fs : List String} :
    normalExtensions fs = fs ↔ ∀ f ∈ fs, f ≠ "" ∧ normalExtension f = f := by
  constructor
  · intro same f mem
    -- As many are left as there were, so none is empty.
    have all : normalExtensions fs = fs.map normalExtension := by
      rw [normalExtensions, List.filter_eq_self, ← List.length_filter_eq_length_iff, List.length_map]
      exact congrArg List.length same
    have fixed : fs.map normalExtension = fs.map id := by rw [← all, same, List.map_id]
    exact ⟨ne_empty_of_mem_normalExtensions (same.symm ▸ mem), List.map_inj_left.1 fixed f mem⟩
  · intro fixed
    have same : fs.map normalExtension = fs.map id := List.map_congr_left fun f mem => (fixed f mem).2
    rw [normalExtensions, same, List.map_id, List.filter_eq_self]
    simpa using fun f mem => (fixed f mem).1

/-- What becomes of the extensions that are given. -/
structure FileTypes (given : List Extension) (fileTypes : List String) : Prop where
  /-- There is one entry for each extension with a stem, in the order given. -/
  inOrder : fileTypes = Extension.entries given
  /-- No entry is empty, begins with a dot or ends in white space. -/
  normal : ∀ f ∈ fileTypes,
    f ≠ "" ∧ f.toList.head? ≠ some '.' ∧ ∀ c ∈ f.toList.getLast?, isBlank c = false
  /-- Of the extensions without a gap those have no stem that are made of dots and white space. -/
  bare : ∀ e ∈ given, e.gap = [] → (e.stem = [] ↔ ∀ c ∈ e.text.toList, c = '.' ∨ isBlank c = true)
  /-- No entry begins with white space either, exactly if there is no gap. -/
  solid : (∀ f ∈ fileTypes, IsTrimmed f.toList) ↔ ∀ e ∈ given, e.gap = []
  /-- Another grammar that is given the entries has these file types, exactly if there is no gap. -/
  again : ∀ (other : Grammar) (file : GrammarFile), other.fileTypes = [] → other.compile = .ok file →
    ∃ file' : GrammarFile, (other.withFileTypes fileTypes).compile = .ok file' ∧
      (file'.fileTypes = fileTypes ↔ ∀ e ∈ given, e.gap = [])

theorem fileTypes_entries (given : List Extension) : FileTypes given (Extension.entries given) where
  inOrder := rfl
  normal f mem := by
    obtain ⟨e, -, stem, rfl⟩ := Extension.mem_entries_iff.1 mem
    refine ⟨mt e.entry_eq_empty_iff.1 stem, ?_, ?_⟩
    · rw [Extension.entry, String.toList_ofList]
      exact e.head?_entry_ne
    · rw [Extension.entry, String.toList_ofList, List.getLast?_append_of_ne_nil _ stem]
      exact e.trimmed.last
  bare e _ := e.stem_eq_nil_iff
  solid := Extension.forall_entries_iff Extension.isTrimmed_entry_iff
  again other file none compiled := by
    refine ⟨_, compile_withFileTypes compiled _, ?_⟩
    rw [none, List.nil_append, normalExtensions_eq_self_iff,
      ← Extension.forall_entries_iff (p := fun f => normalExtension f = f)
        Extension.normalExtension_entry_eq_iff]
    refine forall₂_congr fun f mem => and_iff_right ?_
    obtain ⟨e, -, stem, rfl⟩ := Extension.mem_entries_iff.1 mem
    exact mt e.entry_eq_empty_iff.1 stem

/-- The file types of a finished grammar are the entries of all extensions that were given to it, in
however many calls. They are as they should be where no extension has a gap, and not where one has. -/
theorem compile_fileTypes {start : UInt32} {calls : List Call} {d : Desk} {x : Handle}
    (built : run start .empty calls = some d) (begun : d.grammars x = some g)
    (compiled : g.compile = .ok file) :
    (∃ given : List Extension, given.map Extension.text = (Script.of x calls).fileTypes) ∧
      ∀ given : List Extension, given.map Extension.text = (Script.of x calls).fileTypes →
        FileTypes given file.fileTypes := by
  refine ⟨Extension.exists_texts _, fun given texts => ?_⟩
  have same : file.fileTypes = Extension.entries given := by
    rw [fileTypes_of_compile compiled, fileTypes_of_run built begun, ← texts,
      Extension.normalExtensions_texts]
  rw [same]
  exact fileTypes_entries given

/-- A grammar that is given extensions in two calls, with another call between them. -/
def twiceGiven : List Call :=
  [.grammar 0 "Toy", .fileTypes 0 [" .toy", ". a"], .scopeName 0 "toy", .fileTypes 0 ["...", "ty"]]

theorem compile_fileTypes_twiceGiven : ∃ (d : Desk) (g : Grammar) (file : GrammarFile),
    run 0 .empty twiceGiven = some d ∧ d.grammars 0 = some g ∧ g.compile = .ok file ∧
      file.fileTypes = ["toy", " a", "ty"] ∧
      ∃ given : List Extension, given.map Extension.text = [" .toy", ". a", "...", "ty"] ∧
        FileTypes given file.fileTypes := by
  have built : run 0 .empty twiceGiven = some ((run 0 .empty twiceGiven).get rfl) :=
    (Option.some_get _).symm
  have compiled :
      (((Grammar.new "Toy").withScopeName "toy").withFileTypes [" .toy", ". a", "...", "ty"]).compile =
        .ok ⟨"Toy", "source.toy", ["toy", " a", "ty"], [], []⟩ := by rfl
  obtain ⟨⟨given, texts⟩, all⟩ := compile_fileTypes (x := 0) built rfl compiled
  exact ⟨_, _, _, built, rfl, compiled, rfl, given, texts, all given texts⟩

/-- Behind a dot white space comes to light, and nothing removes it. -/
theorem not_fileTypes_trimmed : ¬ ∀ (g : Grammar) (file : GrammarFile), g.compile = .ok file →
    ∀ f ∈ file.fileTypes, ∀ c ∈ f.toList.head?, isBlank c = false := by
  intro trimmed
  have compiled : ((Grammar.new "Toy").withFileTypes [". a"]).compile =
      .ok ⟨"Toy", "source.toy", [" a"], [], []⟩ := by rfl
  have solid := trimmed _ _ compiled " a" List.mem_cons_self ' ' (by decide)
  exact absurd solid (by decide)

end TextMate
