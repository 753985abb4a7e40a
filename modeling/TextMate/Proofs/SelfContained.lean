import TextMate.Regex.Literal
import TextMate.Regex.Scan
import TextMate.Unicode.Alphanumeric

/-!
# Self-contained regexes

A text is self-contained if reading it leaves nothing open and disturbs nothing around it. Such a
text can be read anywhere outside a set as if it stood alone: the brackets around it only lie
below its own (`Cursor.after_within`), and in a row with others it leaves the cursor where it was
(`SelfContained.append`). Literals and the building blocks are self-contained.
-/

set_option autoImplicit false

namespace TextMate.Regex

def isWordChar (c : Char) : Bool :=
  Unicode.isAlphanumeric c || c = '_'

/-- A character that may stand between the braces of an interval. -/
def isIntervalChar (c : Char) : Bool :=
  isWordChar c || c = ',' || c = '^'

/-- A character that begins a quantifier. -/
def startsQuantifier (c : Char) : Bool :=
  c ∈ ['?', '*', '+', '{']

/-- The characters that a scan does not read as ordinary ones. -/
def scanned : List Char :=
  ['\\', '(', ')', '[', ']', '{', '}', '|', '?', '*', '+']

theorem isIntervalChar_scanned : ∀ c ∈ scanned, isIntervalChar c = false := by
  have none : scanned.all (fun c => !isIntervalChar c) = true := by decide +kernel
  intro c hc
  simpa using List.all_eq_true.1 none c hc

namespace Cursor

/-- A character is read by itself, unless what is pending lays claim to it. Then no bracket opens or
closes. -/
theorem step_cases (braces : Braces) (k : Cursor) (c : Char) :
    k.step braces c = read braces k.nest c ∨
      ∃ pending, pending ≠ .groupHead ∧ k.step braces c = ⟨k.nest, pending⟩ := by
  obtain ⟨nest, pending⟩ := k
  cases pending with
  | nothing => exact .inl rfl
  | groupHead => exact .inl rfl
  | escape => exact .inr ⟨.nothing, by decide, rfl⟩
  | interval =>
    simp only [step]
    split
    · exact .inr ⟨.nothing, by decide, rfl⟩
    · exact .inr ⟨.interval, by decide, rfl⟩
  | setHead =>
    simp only [step]
    split
    · exact .inr ⟨.negatedSetHead, by decide, rfl⟩
    · split
      · exact .inr ⟨.nothing, by decide, rfl⟩
      · exact .inl rfl
  | negatedSetHead =>
    simp only [step]
    split
    · exact .inr ⟨.nothing, by decide, rfl⟩
    · exact .inl rfl

/-- A self-contained text may go on with `c`: a `)` closes a group of its own, and only the
characters of an interval stand between braces. -/
def Allows (k : Cursor) (c : Char) : Prop :=
  match k.pending with
  | .escape => True
  | .interval => c = '}' ∨ isIntervalChar c = true
  | _ => k.nest = [] → c ≠ ')'

instance decidableAllows : (k : Cursor) → (c : Char) → Decidable (k.Allows c)
  | ⟨_, .escape⟩, _ => inferInstanceAs (Decidable True)
  | ⟨_, .interval⟩, c => inferInstanceAs (Decidable (c = '}' ∨ isIntervalChar c = true))
  | ⟨nest, .nothing⟩, c => inferInstanceAs (Decidable (nest = [] → c ≠ ')'))
  | ⟨nest, .groupHead⟩, c => inferInstanceAs (Decidable (nest = [] → c ≠ ')'))
  | ⟨nest, .setHead⟩, c => inferInstanceAs (Decidable (nest = [] → c ≠ ')'))
  | ⟨nest, .negatedSetHead⟩, c => inferInstanceAs (Decidable (nest = [] → c ≠ ')'))

/-- Every character of the text is allowed where it stands. -/
def AllowsAll (k : Cursor) : List Char → Prop
  | [] => True
  | c :: rest => k.Allows c ∧ AllowsAll (k.step .interval c) rest

instance decidableAllowsAll (k : Cursor) : (cs : List Char) → Decidable (k.AllowsAll cs)
  | [] => isTrue trivial
  | c :: rest =>
    have := decidableAllowsAll (k.step .interval c) rest
    inferInstanceAs (Decidable (k.Allows c ∧ AllowsAll (k.step .interval c) rest))

/-- The cursor with more open brackets around it. -/
def within (outer : List Bracket) (k : Cursor) : Cursor :=
  ⟨k.nest ++ outer, k.pending⟩

theorem allowsAll_append {k : Cursor} {as bs : List Char} :
    k.AllowsAll (as ++ bs) ↔ k.AllowsAll as ∧ (k.after .interval as).AllowsAll bs := by
  induction as generalizing k with
  | nil => simp [AllowsAll]
  | cons c rest ih => simp only [List.cons_append, AllowsAll, after_cons, ih, and_assoc]

theorem read_within {k : Cursor} {outer : List Bracket} {c : Char} (h : k.nest = [] → c ≠ ')')
    (ho : outer.head? ≠ some .set) :
    read .interval (k.nest ++ outer) c = (read .interval k.nest c).within outer := by
  obtain ⟨nest, pending⟩ := k
  cases nest with
  | nil =>
    have close : c ≠ ')' := h rfl
    simp only [List.nil_append, read, if_neg ho, readOutsideSet, close]
    grind [within]
  | cons b nest =>
    simp only [List.cons_append, read, readInSet, readOutsideSet, List.head?_cons, List.tail_cons]
    grind [within]

/-- Groups around a text do not make it part of a set. -/
theorem head?_groups (n : Nat) : (List.replicate n Bracket.group).head? ≠ some .set := by
  cases n <;> simp [List.replicate_succ]

/-- One step does not see the brackets around the text. -/
theorem step_within {k : Cursor} {outer : List Bracket} {c : Char} (h : k.Allows c)
    (ho : outer.head? ≠ some .set) :
    (k.within outer).step .interval c = (k.step .interval c).within outer := by
  obtain ⟨nest, pending⟩ := k
  cases pending with
  | escape => rfl
  | interval => simp only [within, step]; split <;> rfl
  | nothing => exact read_within (k := ⟨nest, .nothing⟩) h ho
  | groupHead => exact read_within (k := ⟨nest, .groupHead⟩) h ho
  | setHead =>
    have inner := read_within (k := ⟨nest, .setHead⟩) h ho
    simp only [within, step] at inner ⊢
    split
    · rfl
    · split
      · rfl
      · exact inner
  | negatedSetHead =>
    have inner := read_within (k := ⟨nest, .negatedSetHead⟩) h ho
    simp only [within, step] at inner ⊢
    split
    · rfl
    · exact inner

/-- The brackets around a text lie below its own from the first character to the last. -/
theorem after_within {k : Cursor} {outer : List Bracket} {cs : List Char} (h : k.AllowsAll cs)
    (ho : outer.head? ≠ some .set) :
    (k.within outer).after .interval cs = (k.after .interval cs).within outer := by
  induction cs generalizing k with
  | nil => rfl
  | cons c rest ih => rw [after_cons, step_within h.1 ho, ih h.2, after_cons]

theorem allows_within {k : Cursor} {outer : List Bracket} {c : Char} (h : k.Allows c) :
    (k.within outer).Allows c := by
  obtain ⟨nest, pending⟩ := k
  cases pending <;> simp_all [Allows, within]

theorem allowsAll_within {k : Cursor} {outer : List Bracket} {cs : List Char} (h : k.AllowsAll cs)
    (ho : outer.head? ≠ some .set) : (k.within outer).AllowsAll cs := by
  induction cs generalizing k with
  | nil => trivial
  | cons c rest ih =>
    refine ⟨allows_within h.1, ?_⟩
    rw [step_within h.1 ho]
    exact ih h.2

end Cursor

/-- The text is read from the top level back to the top level, each character where it is
allowed, and its first character is no quantifier. -/
structure SelfContained (cs : List Char) : Prop where
  allowed : Cursor.top.AllowsAll cs
  closed : Cursor.top.after .interval cs = .top
  start : ∀ c ∈ cs.head?, startsQuantifier c = false

instance (cs : List Char) : Decidable (SelfContained cs) :=
  decidable_of_iff (Cursor.top.AllowsAll cs ∧ Cursor.top.after .interval cs = .top ∧
      cs.head?.all (fun c => !startsQuantifier c) = true)
    ⟨fun h => ⟨h.1, h.2.1, fun c hc => by simpa using (Option.all_eq_true ..).1 h.2.2 c hc⟩,
      fun h => ⟨h.allowed, h.closed, (Option.all_eq_true ..).2 fun c hc => by simpa using h.start c hc⟩⟩

/-- The texts that open a group: with a number, without one, or as an assertion. -/
def groupOpenings : List (List Char) :=
  [['('], ['(', '?', ':'], ['(', '?', '='], ['(', '?', '!'], ['(', '?', '<', '='],
    ['(', '?', '<', '!']]

/-- A quantifier: one character, or an interval between braces. -/
def IsQuantifier (cs : List Char) : Prop :=
  cs ∈ [['*'], ['+'], ['?']] ∨
    ∃ body, cs = '{' :: (body ++ ['}']) ∧ ∀ c ∈ body, isIntervalChar c = true

namespace Cursor

/-- Inside a group, once its opening is read. -/
def inside : Cursor := top.within [.group]

theorem after_groupOpening :
    ∀ o ∈ groupOpenings, top.after .interval o = inside ∨
      top.after .interval o = ⟨[.group], .groupHead⟩ := by
  decide

theorem allowsAll_groupOpening : ∀ o ∈ groupOpenings, top.AllowsAll o := by
  decide

/-- The head of a group only bears on the number of the group. -/
theorem after_groupHead (nest : List Bracket) {cs : List Char} (h : cs ≠ []) :
    after .interval ⟨nest, .groupHead⟩ cs = after .interval ⟨nest, .nothing⟩ cs := by
  cases cs with
  | nil => exact absurd rfl h
  | cons c rest => rfl

theorem allowsAll_groupHead (nest : List Bracket) (cs : List Char) :
    AllowsAll ⟨nest, .groupHead⟩ cs ↔ AllowsAll ⟨nest, .nothing⟩ cs := by
  cases cs <;> exact Iff.rfl

theorem step_interval {nest : List Bracket} {c : Char} (h : isIntervalChar c = true) :
    step .interval ⟨nest, .interval⟩ c = ⟨nest, .interval⟩ := by
  have brace : c ≠ '}' := by
    rintro rfl
    exact absurd h (by rw [isIntervalChar_scanned _ (by decide)]; decide)
  simp only [step, if_neg brace]

theorem after_interval {nest : List Bracket} {body : List Char}
    (h : ∀ c ∈ body, isIntervalChar c = true) :
    after .interval ⟨nest, .interval⟩ body = ⟨nest, .interval⟩ := by
  induction body with
  | nil => rfl
  | cons c rest ih =>
    rw [after_cons, step_interval (h c (by simp))]
    exact ih fun d hd => h d (by simp [hd])

theorem allowsAll_interval {nest : List Bracket} {body : List Char}
    (h : ∀ c ∈ body, isIntervalChar c = true) : AllowsAll ⟨nest, .interval⟩ body := by
  induction body with
  | nil => trivial
  | cons c rest ih =>
    refine ⟨Or.inr (h c (by simp)), ?_⟩
    rw [step_interval (h c (by simp))]
    exact ih fun d hd => h d (by simp [hd])

/-- A quantifier is read from the top level back to the top level. -/
theorem after_quantifier {q : List Char} (h : IsQuantifier q) : top.after .interval q = top := by
  rcases h with h | ⟨body, rfl, hbody⟩
  · simp only [List.mem_cons, List.not_mem_nil, or_false] at h
    rcases h with rfl | rfl | rfl <;> rfl
  · rw [after_cons, show top.step .interval '{' = ⟨[], .interval⟩ from rfl, after_append,
      after_interval hbody]
    rfl

theorem allowsAll_quantifier {q : List Char} (h : IsQuantifier q) : top.AllowsAll q := by
  rcases h with h | ⟨body, rfl, hbody⟩
  · simp only [List.mem_cons, List.not_mem_nil, or_false] at h
    rcases h with rfl | rfl | rfl <;> decide
  · refine ⟨by decide, ?_⟩
    rw [show top.step .interval '{' = ⟨[], .interval⟩ from rfl, allowsAll_append,
      after_interval hbody]
    exact ⟨allowsAll_interval hbody, Or.inl rfl, trivial⟩

end Cursor

namespace SelfContained

variable {as bs : List Char}

theorem nil : SelfContained [] := by
  decide

/-- No `?` takes away the number of a group around the text. -/
theorem head?_ne (h : SelfContained as) : as.head? ≠ some '?' := by
  intro question
  exact absurd (h.start '?' question) (by decide)

/-- Inside a group a self-contained text is read back to where it started. -/
theorem after_inside (h : SelfContained as) :
    Cursor.inside.after .interval as = Cursor.inside := by
  rw [Cursor.inside, Cursor.after_within h.allowed (by decide), h.closed]

theorem allowsAll_inside (h : SelfContained as) : Cursor.inside.AllowsAll as :=
  Cursor.allowsAll_within h.allowed (by decide)

/-- Two self-contained texts in a row. -/
theorem append (ha : SelfContained as) (hb : SelfContained bs) : SelfContained (as ++ bs) where
  allowed := Cursor.allowsAll_append.2 ⟨ha.allowed, by rw [ha.closed]; exact hb.allowed⟩
  closed := by rw [Cursor.after_append, ha.closed, hb.closed]
  start := by
    cases as with
    | nil => exact hb.start
    | cons c rest => exact ha.start

/-- A bar is read from the top level back to the top level. -/
theorem bar : SelfContained ['|'] := by
  decide

/-- A self-contained text in a group of any kind. -/
theorem wrapped (h : SelfContained as) {o : List Char} (ho : o ∈ groupOpenings) :
    SelfContained (o ++ (as ++ [')'])) where
  allowed := by
    have body : Cursor.inside.AllowsAll (as ++ [')']) := by
      refine Cursor.allowsAll_append.2 ⟨h.allowsAll_inside, ?_⟩
      rw [h.after_inside]
      decide
    refine Cursor.allowsAll_append.2 ⟨Cursor.allowsAll_groupOpening o ho, ?_⟩
    rcases Cursor.after_groupOpening o ho with ha | ha
    · rwa [ha]
    · rw [ha, Cursor.allowsAll_groupHead]
      exact body
  closed := by
    have body : Cursor.inside.after .interval (as ++ [')']) = .top := by
      rw [Cursor.after_append, h.after_inside]
      rfl
    rw [Cursor.after_append]
    rcases Cursor.after_groupOpening o ho with ha | ha
    · rwa [ha]
    · rw [ha, Cursor.after_groupHead _ (by simp)]
      exact body
  start := by
    have first : ∀ o ∈ groupOpenings, ∀ rest, ∀ c ∈ (o ++ rest).head?, startsQuantifier c = false := by
      simp [groupOpenings, startsQuantifier]
    exact first o ho _

/-- A self-contained text under a quantifier. -/
theorem quantified (h : SelfContained as) (hne : as ≠ []) {q : List Char} (hq : IsQuantifier q) :
    SelfContained (as ++ q) where
  allowed :=
    Cursor.allowsAll_append.2 ⟨h.allowed, by rw [h.closed]; exact Cursor.allowsAll_quantifier hq⟩
  closed := by rw [Cursor.after_append, h.closed, Cursor.after_quantifier hq]
  start := by
    cases as with
    | nil => exact absurd rfl hne
    | cons c rest => exact h.start

/-- An escaped operator is an escape pair, and any other character stands for itself. -/
theorem escapeChar (c : Char) : SelfContained (Regex.escapeChar c) := by
  obtain ⟨-, chars⟩ | ⟨plain, chars⟩ := escapeChar_cases c
  · rw [chars]
    exact ⟨⟨by decide, trivial, trivial⟩, rfl, by simp [startsQuantifier]⟩
  · have other (d : Char) (hd : isOperator d = true) : c ≠ d := ne_of_not_isOperator plain hd
    rw [chars]
    refine ⟨⟨fun _ => other ')' (by decide), trivial⟩, ?_, ?_⟩
    · simp [Cursor.after, Cursor.step, Cursor.read, Cursor.readOutsideSet, Cursor.top,
        other '\\' (by decide), other '(' (by decide), other '[' (by decide), other ')' (by decide),
        other '{' (by decide)]
    · simp [startsQuantifier, other '?' (by decide), other '*' (by decide), other '+' (by decide),
        other '{' (by decide)]

/-- Literals are self-contained. -/
theorem escapeChars (cs : List Char) : SelfContained (Regex.escapeChars cs) := by
  induction cs with
  | nil => exact nil
  | cons c rest ih => exact (escapeChar c).append ih

theorem escape (text : String) : SelfContained (Regex.escape text).toList := by
  rw [Regex.escape, String.toList_ofList]
  exact escapeChars text.toList

end SelfContained

end TextMate.Regex
