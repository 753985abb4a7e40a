import TextMate.Proofs.SelfContained

/-!
# Reading a regex into a tree

The ordinary grammar of regexes, read from left to right. A bar ends an alternative. An alternative
is a row of atoms with quantifiers behind them, and an atom is a character, an escape, a set or a
group with its head. A scan goes along with the reader character by character (`follows_step`), so
every self-contained text can be read, and the tree has the text that was read (`exists_reads`).
-/

set_option autoImplicit false

namespace TextMate.Regex

/-- A regex as it is read: each node adds one thing behind the tree `before`. -/
inductive Tree where
  | empty
  | char (before : Tree) (c : Char)
  /-- A backslash and the character behind it. -/
  | escape (before : Tree) (c : Char)
  /-- The characters between the outer brackets of a set. -/
  | set (before : Tree) (body : List Char)
  /-- A group. The head of a group without a number begins with a `?`. -/
  | group (before : Tree) (head : List Char) (body : Tree)
  | quantifier (before : Tree) (q : List Char)
  | bar (before : Tree)
  deriving DecidableEq, Repr

/-- What a node adds to a regex. -/
inductive Kind where
  | atom
  | quantifier
  | bar
  deriving DecidableEq, Repr

/-- The kind of what begins with the character `c`. -/
def Kind.ofStart (c : Char) : Kind :=
  if c = '|' then bar else if startsQuantifier c then quantifier else atom

namespace Tree

/-- The text of a tree. -/
def text : Tree → List Char
  | empty => []
  | char before c => before.text ++ [c]
  | escape before c => before.text ++ ['\\', c]
  | set before body => before.text ++ '[' :: (body ++ [']'])
  | group before head body => before.text ++ '(' :: (head ++ (body.text ++ [')']))
  | quantifier before q => before.text ++ q
  | bar before => before.text ++ ['|']

/-- What stands in a tree outside all groups, from left to right. -/
def kinds : Tree → List Kind
  | empty => []
  | char before _ | escape before _ | set before _ | group before _ _ => before.kinds ++ [.atom]
  | quantifier before _ => before.kinds ++ [.quantifier]
  | bar before => before.kinds ++ [.bar]

/-- The second tree behind the first one. -/
def append (s : Tree) : Tree → Tree
  | empty => s
  | char before c => char (s.append before) c
  | escape before c => escape (s.append before) c
  | set before body => set (s.append before) body
  | group before head body => group (s.append before) head body
  | quantifier before q => quantifier (s.append before) q
  | bar before => bar (s.append before)

theorem empty_append (t : Tree) : empty.append t = t := by
  induction t with
  | empty => rfl
  | char _ _ ih | escape _ _ ih | set _ _ ih | quantifier _ _ ih | bar _ ih => simp only [append, ih]
  | group _ _ _ ih _ => simp only [append, ih]

end Tree

/-- A group that is still open: what stands before it, and its head. -/
structure OpenGroup where
  before : Tree
  head : List Char
  deriving DecidableEq, Repr

/-- What is read but not yet part of a tree. -/
inductive Unfinished where
  | nothing
  | escape
  /-- The head of a group behind its `(`. -/
  | head (read : List Char)
  /-- A set with `depth` sets open inside it. -/
  | set (depth : Nat) (pending : Pending) (body : List Char)
  /-- An interval behind its `{`. -/
  | interval (body : List Char)
  deriving DecidableEq, Repr

/-- A reader between two characters. -/
structure Reader where
  /-- The open groups, innermost first. -/
  enclosing : List OpenGroup
  /-- What stands inside the innermost open group. -/
  current : Tree
  unfinished : Unfinished
  deriving DecidableEq, Repr

/-- The characters of a head behind its `?`: those of a name or of options, and the `<` before them. -/
def isHeadChar (c : Char) : Bool :=
  isWordChar c || c = '-' || c = '<'

/-- The characters that end a head. -/
def endsHead (c : Char) : Bool :=
  c ∈ [':', '=', '!', '>']

namespace Reader

/-- Nothing is read yet. -/
def start : Reader := ⟨[], .empty, .nothing⟩

/-- Goes into a group with the given head. -/
def enter (r : Reader) (head : List Char) : Reader :=
  ⟨⟨r.current, head⟩ :: r.enclosing, .empty, .nothing⟩

/-- Closes the innermost open group. -/
def close (r : Reader) : Option Reader :=
  match r.enclosing with
  | [] => none
  | g :: outer => some ⟨outer, .group g.before g.head r.current, .nothing⟩

/-- Reads the first character of something new. A quantifier at the start of an alternative has
nothing in front of it. -/
def read (r : Reader) (c : Char) : Option Reader :=
  if c = '\\' then some ⟨r.enclosing, r.current, .escape⟩
  else if c = '(' then some ⟨r.enclosing, r.current, .head []⟩
  else if c = '[' then some ⟨r.enclosing, r.current, .set 0 .setHead []⟩
  else if c = ')' then r.close
  else if c = '{' then some ⟨r.enclosing, r.current, .interval []⟩
  else if c = '|' then some ⟨r.enclosing, .bar r.current, .nothing⟩
  else if startsQuantifier c then some ⟨r.enclosing, .quantifier r.current [c], .nothing⟩
  else some ⟨r.enclosing, .char r.current c, .nothing⟩

/-- Reads a character of a set in which `depth` sets are open. -/
def readSet (r : Reader) (depth : Nat) (pending : Pending) (body : List Char) (c : Char) : Reader :=
  let k := Cursor.step .interval ⟨List.replicate (depth + 1) .set, pending⟩ c
  match k.nest.length with
  | 0 => ⟨r.enclosing, .set r.current body, .nothing⟩
  | depth + 1 => ⟨r.enclosing, r.current, .set depth k.pending (body ++ [c])⟩

/-- Reads one character. It fails at a `)` that closes nothing. -/
def step (r : Reader) (c : Char) : Option Reader :=
  match r.unfinished with
  | .nothing => r.read c
  | .escape => some ⟨r.enclosing, .escape r.current c, .nothing⟩
  | .head [] => if c = '?' then some ⟨r.enclosing, r.current, .head ['?']⟩ else (r.enter []).read c
  | .head (h :: hs) =>
    if endsHead c then some (r.enter (h :: hs ++ [c]))
    else if isHeadChar c then some ⟨r.enclosing, r.current, .head (h :: hs ++ [c])⟩
    else (r.enter (h :: hs)).read c
  | .set depth pending body => some (r.readSet depth pending body c)
  | .interval body =>
    if c = '}' then some ⟨r.enclosing, .quantifier r.current ('{' :: (body ++ ['}'])), .nothing⟩
    else some ⟨r.enclosing, r.current, .interval (body ++ [c])⟩

/-- Reads a whole text. -/
def run (r : Reader) : List Char → Option Reader
  | [] => some r
  | c :: rest => (r.step c).bind fun r' => r'.run rest

theorem run_append {r r' : Reader} {as : List Char} (h : r.run as = some r') (bs : List Char) :
    r.run (as ++ bs) = r'.run bs := by
  induction as generalizing r with
  | nil =>
    cases h
    rfl
  | cons c rest ih =>
    obtain ⟨r₁, hstep, hrest⟩ := Option.bind_eq_some_iff.1 h
    rw [List.cons_append, run, hstep]
    exact ih hrest

end Reader

/-- The text is read to the end, with nothing left open. -/
def Reads (cs : List Char) (t : Tree) : Prop :=
  Reader.start.run cs = some ⟨[], t, .nothing⟩

/-- The tree of a regex, if all its brackets match. -/
def read (text : String) : Option Tree :=
  match Reader.start.run text.toList with
  | some ⟨[], t, .nothing⟩ => some t
  | _ => none

theorem read_eq_some_iff {text : String} {t : Tree} : read text = some t ↔ Reads text.toList t := by
  unfold read Reads
  split
  · next t' h => simp [h]
  · next h =>
    constructor
    · nofun
    · intro reads
      exact absurd reads (h t)

theorem Reads.unique {cs : List Char} {s t : Tree} (h : Reads cs s) (h' : Reads cs t) : s = t := by
  have same := h.symm.trans h'
  simpa using same

/-- What is unfinished is an atom, or a quantifier. -/
def Unfinished.kinds : Unfinished → List Kind
  | .nothing => []
  | .escape | .head _ | .set _ _ _ => [.atom]
  | .interval _ => [.quantifier]

def Unfinished.text : Unfinished → List Char
  | .nothing => []
  | .escape => ['\\']
  | .head read => '(' :: read
  | .set _ _ body => '[' :: body
  | .interval body => '{' :: body

namespace Reader

/-- What stands outside all groups, given the open groups and what is read inside them. To the
outermost level the group that is open in it is unfinished. -/
def kindsIn : List OpenGroup → Tree → Unfinished → List Kind
  | [], t, u => t.kinds ++ u.kinds
  | g :: outer, _, _ => kindsIn outer g.before (.head g.head)

def textIn : List OpenGroup → Tree → Unfinished → List Char
  | [], t, u => t.text ++ u.text
  | g :: outer, t, u => textIn outer g.before (.head g.head) ++ (t.text ++ u.text)

def kinds (r : Reader) : List Kind := kindsIn r.enclosing r.current r.unfinished

def text (r : Reader) : List Char := textIn r.enclosing r.current r.unfinished

def nest (r : Reader) : List Bracket := List.replicate r.enclosing.length .group

/-- What a scan remembers of the reader. -/
def cursor (r : Reader) : Cursor :=
  match r.unfinished with
  | .nothing => ⟨r.nest, .nothing⟩
  | .escape => ⟨r.nest, .escape⟩
  | .head [] => ⟨.group :: r.nest, .groupHead⟩
  | .head (_ :: _) => ⟨.group :: r.nest, .nothing⟩
  | .set depth pending _ => ⟨List.replicate (depth + 1) .set ++ r.nest, pending⟩
  | .interval _ => ⟨r.nest, .interval⟩

/-- `r'` is `r` with the character `c` read, seen from a scan of the text. -/
structure Follows (r : Reader) (c : Char) (r' : Reader) : Prop where
  cursor : r'.cursor = r.cursor.step .interval c
  kinds : r'.kinds = r.kinds ++ if r.cursor = .top then [Kind.ofStart c] else []
  text : r'.text = r.text ++ [c]

/-- A change at the innermost level adds to the text of the whole. -/
theorem textIn_eq {outer : List OpenGroup} {t t' : Tree} {u u' : Unfinished} {cs : List Char}
    (h : t'.text ++ u'.text = t.text ++ (u.text ++ cs)) :
    textIn outer t' u' = textIn outer t u ++ cs := by
  cases outer <;> simp only [textIn, h, List.append_assoc]

/-- A change at the innermost level shows outside all groups only if no group is open. -/
theorem kindsIn_eq {outer : List OpenGroup} {t t' : Tree} {u u' : Unfinished} {ks : List Kind}
    (h : t'.kinds ++ u'.kinds = t.kinds ++ (u.kinds ++ ks)) :
    kindsIn outer t' u' = kindsIn outer t u ++ if outer = [] then ks else [] := by
  cases outer <;> simp [kindsIn, h]

theorem cursor_eq_top_iff {outer : List OpenGroup} {t : Tree} :
    cursor ⟨outer, t, .nothing⟩ = .top ↔ outer = [] := by
  cases outer <;> simp [cursor, nest, Cursor.top, List.replicate_succ]

/-- `c` begins `u`, and a scan sees the same. -/
structure Begins (c : Char) (u : Unfinished) : Prop where
  kinds : u.kinds = [Kind.ofStart c]
  text : u.text = [c]
  cursor : ∀ outer t, cursor ⟨outer, t, u⟩ =
    Cursor.read .interval (List.replicate outer.length .group) c

/-- `c` alone adds one thing to a tree by `f`, and a scan sees the same. -/
structure Adds (c : Char) (f : Tree → Tree) : Prop where
  append : ∀ s t : Tree, s.append (f t) = f (s.append t)
  kinds : ∀ t, (f t).kinds = t.kinds ++ [Kind.ofStart c]
  text : ∀ t, (f t).text = t.text ++ [c]
  cursor : ∀ n, Cursor.read .interval (List.replicate n .group) c = ⟨List.replicate n .group, .nothing⟩

/-- What the first character of something new can do: begin it, close a group, or be all of it. -/
theorem read_cases (c : Char) :
    (∃ u, Begins c u ∧ ∀ r : Reader, r.read c = some ⟨r.enclosing, r.current, u⟩) ∨
      (c = ')' ∧ ∀ r : Reader, r.read c = r.close) ∨
      ∃ f, Adds c f ∧ ∀ r : Reader, r.read c = some ⟨r.enclosing, f r.current, .nothing⟩ := by
  have start {c : Char} (h : c ∈ ['\\', '(', '[']) : [Kind.atom] = [Kind.ofStart c] := by
    simp only [List.mem_cons, List.not_mem_nil, or_false] at h
    rcases h with rfl | rfl | rfl <;> decide
  by_cases hesc : c = '\\'
  · subst hesc
    exact .inl ⟨.escape, ⟨start (by decide), rfl, fun _ _ => rfl⟩, fun _ => rfl⟩
  by_cases hgroup : c = '('
  · subst hgroup
    refine .inl ⟨.head [], ⟨start (by decide), rfl, fun outer t => ?_⟩, fun _ => rfl⟩
    simp [cursor, nest, Cursor.read, Cursor.readOutsideSet, Cursor.head?_groups]
  by_cases hset : c = '['
  · subst hset
    refine .inl ⟨.set 0 .setHead [], ⟨start (by decide), rfl, fun outer t => ?_⟩, fun _ => rfl⟩
    simp [cursor, nest, Cursor.read, Cursor.readOutsideSet, Cursor.head?_groups]
  by_cases hclose : c = ')'
  · subst hclose
    exact .inr (.inl ⟨rfl, fun _ => rfl⟩)
  by_cases hbrace : c = '{'
  · subst hbrace
    refine .inl ⟨.interval [], ⟨by decide, rfl, fun outer t => ?_⟩, fun _ => rfl⟩
    simp [cursor, nest, Cursor.read, Cursor.readOutsideSet, Cursor.head?_groups]
  have plain (n : Nat) : Cursor.read .interval (List.replicate n .group) c =
      ⟨List.replicate n .group, .nothing⟩ := by
    simp [Cursor.read, Cursor.readOutsideSet, Cursor.head?_groups, hesc, hgroup, hset, hclose, hbrace]
  simp only [read, hesc, hgroup, hset, hclose, hbrace, if_false]
  by_cases hbar : c = '|'
  · subst hbar
    exact .inr (.inr ⟨.bar, ⟨fun _ _ => rfl, fun _ => rfl, fun _ => rfl, plain⟩, fun _ => rfl⟩)
  by_cases hquant : startsQuantifier c = true
  · have kind : Kind.ofStart c = .quantifier := by simp [Kind.ofStart, hbar, hquant]
    simp only [hbar, hquant, if_true, if_false]
    refine .inr (.inr ⟨fun t => .quantifier t [c], ⟨fun _ _ => rfl, ?_, fun _ => rfl, plain⟩,
      fun _ => rfl⟩)
    intro t
    rw [kind]
    rfl
  · have kind : Kind.ofStart c = .atom := by simp [Kind.ofStart, hbar, hquant]
    simp only [hbar, hquant, if_false]
    refine .inr (.inr ⟨fun t => .char t c, ⟨fun _ _ => rfl, ?_, fun _ => rfl, plain⟩, fun _ => rfl⟩)
    intro t
    rw [kind]
    rfl

/-- One thing more at the innermost level. -/
theorem follows_of_eq {outer : List OpenGroup} {t t' : Tree} {u : Unfinished} {c : Char}
    (cursor : cursor ⟨outer, t', u⟩ = Cursor.read .interval (List.replicate outer.length .group) c)
    (kinds : t'.kinds ++ u.kinds = t.kinds ++ [Kind.ofStart c])
    (text : t'.text ++ u.text = t.text ++ [c]) :
    Follows ⟨outer, t, .nothing⟩ c ⟨outer, t', u⟩ := by
  refine ⟨cursor, ?_, textIn_eq text⟩
  simp only [cursor_eq_top_iff]
  exact kindsIn_eq kinds

theorem follows_close (g : OpenGroup) (outer : List OpenGroup) (t : Tree) :
    Follows ⟨g :: outer, t, .nothing⟩ ')' ⟨outer, .group g.before g.head t, .nothing⟩ := by
  refine ⟨?_, ?_, ?_⟩
  · simp [cursor, nest, List.replicate_succ, Cursor.step, Cursor.read, Cursor.readOutsideSet]
  · rw [if_neg (by simp [cursor_eq_top_iff]), List.append_nil]
    cases outer <;> simp [Reader.kinds, kindsIn, Tree.kinds, Unfinished.kinds]
  · cases outer <;> simp [Reader.text, textIn, Tree.text, Unfinished.text]

/-- Reading the first character of something new. -/
theorem follows_read (outer : List OpenGroup) (t : Tree) (c : Char) (h : outer = [] → c ≠ ')') :
    ∃ r', read ⟨outer, t, .nothing⟩ c = some r' ∧ Follows ⟨outer, t, .nothing⟩ c r' := by
  rcases read_cases c with ⟨u, begins, reads⟩ | ⟨rfl, reads⟩ | ⟨f, adds, reads⟩
  · refine ⟨_, reads _, follows_of_eq (begins.cursor outer t) ?_ ?_⟩
    · rw [begins.kinds]
    · rw [begins.text]
  · cases outer with
    | nil => exact absurd rfl (h rfl)
    | cons g outer => exact ⟨_, reads _, follows_close g outer t⟩
  · refine ⟨_, reads _, follows_of_eq (adds.cursor outer.length).symm ?_ ?_⟩
    · simp only [adds.kinds, Unfinished.kinds, List.append_nil]
    · simp only [adds.text, Unfinished.text, List.append_nil]

/-- A character of something that is under way adds nothing outside the groups. -/
theorem follows_of_pending {outer : List OpenGroup} {t t' : Tree} {u u' : Unfinished} {c : Char}
    (inside : cursor ⟨outer, t, u⟩ ≠ .top)
    (cursor : cursor ⟨outer, t', u'⟩ = (cursor ⟨outer, t, u⟩).step .interval c)
    (kinds : t'.kinds ++ u'.kinds = t.kinds ++ u.kinds)
    (text : t'.text ++ u'.text = t.text ++ (u.text ++ [c])) :
    Follows ⟨outer, t, u⟩ c ⟨outer, t', u'⟩ := by
  refine ⟨cursor, ?_, textIn_eq text⟩
  have same : kindsIn outer t' u' = kindsIn outer t u ++ if outer = [] then [] else [] :=
    kindsIn_eq (by simpa using kinds)
  rw [ite_self, List.append_nil] at same
  rw [if_neg inside, List.append_nil]
  exact same

/-- The head of a group is over, and the character behind it is the first of the body. -/
theorem follows_enter {outer : List OpenGroup} {t : Tree} {head : List Char} {c : Char} {r' : Reader}
    (h : Follows (enter ⟨outer, t, .head head⟩ head) c r') :
    Follows ⟨outer, t, .head head⟩ c r' := by
  have inside : cursor ⟨outer, t, .head head⟩ ≠ .top := by
    cases head <;> simp [cursor, Cursor.top]
  have inside' : cursor (enter ⟨outer, t, .head head⟩ head) ≠ .top := by
    simp [enter, cursor, nest, Cursor.top, List.replicate_succ]
  have cursors : (cursor (enter ⟨outer, t, .head head⟩ head)).step .interval c =
      (cursor ⟨outer, t, .head head⟩).step .interval c := by
    cases head <;> rfl
  refine ⟨h.cursor.trans cursors, ?_, ?_⟩
  · have kinds := h.kinds
    rw [if_neg inside'] at kinds
    rw [if_neg inside]
    exact kinds
  · have text : Reader.text (enter ⟨outer, t, .head head⟩ head) =
        Reader.text ⟨outer, t, .head head⟩ := by
      simp [enter, Reader.text, textIn, Tree.text, Unfinished.text]
    rw [h.text, text]

/-- A set stays open at some depth, or its last `]` has come. -/
theorem step_sets (depth : Nat) (pending : Pending) (c : Char) :
    (∃ depth' pending', Cursor.step .interval ⟨List.replicate (depth + 1) .set, pending⟩ c =
        ⟨List.replicate (depth' + 1) .set, pending'⟩) ∨
      c = ']' ∧
        Cursor.step .interval ⟨List.replicate (depth + 1) .set, pending⟩ c = ⟨[], .nothing⟩ := by
  have inSet : (∃ depth' pending', Cursor.read .interval (List.replicate (depth + 1) .set) c =
        ⟨List.replicate (depth' + 1) .set, pending'⟩) ∨
      c = ']' ∧ Cursor.read .interval (List.replicate (depth + 1) .set) c = ⟨[], .nothing⟩ := by
    simp only [Cursor.read, List.replicate_succ, List.head?_cons, if_true, Cursor.readInSet,
      List.tail_cons]
    split
    · exact Or.inl ⟨depth, _, rfl⟩
    · split
      · next close =>
        cases depth with
        | zero => exact Or.inr ⟨close, rfl⟩
        | succ depth => exact Or.inl ⟨depth, _, rfl⟩
      · split
        · exact Or.inl ⟨depth + 1, _, rfl⟩
        · exact Or.inl ⟨depth, _, rfl⟩
  rcases Cursor.step_cases .interval ⟨List.replicate (depth + 1) .set, pending⟩ c with
    alone | ⟨pending', -, claimed⟩
  · rw [alone]
    exact inSet
  · exact Or.inl ⟨depth, pending', claimed⟩

theorem follows_readSet (outer : List OpenGroup) (t : Tree) (depth : Nat) (pending : Pending)
    (body : List Char) (c : Char) :
    Follows ⟨outer, t, .set depth pending body⟩ c
      (readSet ⟨outer, t, .set depth pending body⟩ depth pending body c) := by
  have inside : cursor ⟨outer, t, .set depth pending body⟩ ≠ .top := by
    simp [cursor, Cursor.top, List.replicate_succ]
  have below : (cursor ⟨outer, t, .set depth pending body⟩).step .interval c =
      (Cursor.step .interval ⟨List.replicate (depth + 1) .set, pending⟩ c).within
        (List.replicate outer.length .group) := by
    have allowed : Cursor.Allows ⟨List.replicate (depth + 1) .set, pending⟩ c ∨
        pending = .interval := by
      cases pending <;> simp [Cursor.Allows, List.replicate_succ]
    rcases allowed with allowed | rfl
    · exact Cursor.step_within allowed (Cursor.head?_groups outer.length)
    · simp only [cursor, Cursor.step, Cursor.within]
      split <;> rfl
  rcases step_sets depth pending c with ⟨depth', pending', stay⟩ | ⟨rfl, closed⟩
  · have next : readSet ⟨outer, t, .set depth pending body⟩ depth pending body c =
        ⟨outer, t, .set depth' pending' (body ++ [c])⟩ := by
      simp [readSet, stay]
    rw [next]
    refine follows_of_pending inside ?_ rfl ?_
    · rw [below, stay]
      rfl
    · simp [Unfinished.text]
  · have next : readSet ⟨outer, t, .set depth pending body⟩ depth pending body ']' =
        ⟨outer, .set t body, .nothing⟩ := by
      simp [readSet, closed]
    rw [next]
    refine follows_of_pending inside ?_ ?_ ?_
    · rw [below, closed]
      rfl
    · simp [Tree.kinds, Unfinished.kinds]
    · simp [Tree.text, Unfinished.text]

theorem not_mem_scanned_of_head {c : Char} (h : endsHead c = true ∨ isHeadChar c = true) :
    c ∉ scanned := by
  intro hc
  rcases h with h | h
  · have none : scanned.all (fun d => !endsHead d) = true := by decide
    have plain : endsHead c = false := by simpa using List.all_eq_true.1 none c hc
    rw [plain] at h
    exact absurd h (by decide)
  · have plain : isWordChar c = false := by
      have interval := isIntervalChar_scanned c hc
      simp only [isIntervalChar, Bool.or_eq_false_iff] at interval
      exact interval.1.1
    have none : scanned.all (fun d => !(decide (d = '-') || decide (d = '<'))) = true := by decide
    have signs : (decide (c = '-') || decide (c = '<')) = false := by
      simpa using List.all_eq_true.1 none c hc
    simp only [isHeadChar, plain, Bool.false_or] at h
    rw [signs] at h
    exact absurd h (by decide)

/-- One character more of a head. To a scan it is an ordinary one. -/
theorem follows_head (outer : List OpenGroup) (t : Tree) {hs : List Char} {c : Char}
    (h : c ∉ scanned ∨ c = '?') :
    Follows ⟨outer, t, .head hs⟩ c ⟨outer, t, .head (hs ++ [c])⟩ := by
  have special : c ≠ '\\' ∧ c ≠ '(' ∧ c ≠ '[' ∧ c ≠ ')' ∧ c ≠ '{' := by
    rcases h with h | rfl
    · refine ⟨?_, ?_, ?_, ?_, ?_⟩ <;> (rintro rfl; exact h (by decide))
    · decide
  obtain ⟨escape, group, set, close, brace⟩ := special
  refine follows_of_pending ?_ ?_ rfl ?_
  · cases hs <;> simp [cursor, Cursor.top]
  · cases hs <;>
      simp [cursor, nest, Cursor.step, Cursor.read, Cursor.readOutsideSet, escape, group, set, close,
        brace]
  · simp [Unfinished.text]

/-- A head that is over looks the same from inside the group. -/
theorem follows_endHead {r : Reader} {outer : List OpenGroup} {t : Tree} {b : Char} {hs : List Char}
    {c : Char} (h : Follows r c ⟨outer, t, .head (b :: hs)⟩) :
    Follows r c (enter ⟨outer, t, .head (b :: hs)⟩ (b :: hs)) := by
  refine ⟨h.cursor, h.kinds, ?_⟩
  rw [← h.text]
  simp [enter, Reader.text, textIn, Tree.text, Unfinished.text]

/-- Reading goes on with every character that a self-contained text may go on with, and a scan goes
along with it. -/
theorem follows_step {r : Reader} {c : Char} (h : r.cursor.Allows c) :
    ∃ r', r.step c = some r' ∧ Follows r c r' := by
  obtain ⟨outer, t, unfinished⟩ := r
  cases unfinished with
  | nothing =>
    refine follows_read outer t c fun hout => ?_
    subst hout
    exact h rfl
  | escape =>
    refine ⟨_, rfl, follows_of_pending (by simp [cursor, Cursor.top]) rfl ?_ ?_⟩
    · simp [Tree.kinds, Unfinished.kinds]
    · simp [Tree.text, Unfinished.text]
  | head hs =>
    have entered : ∃ r', (enter ⟨outer, t, .head hs⟩ hs).read c = some r' ∧
        Follows ⟨outer, t, .head hs⟩ c r' := by
      obtain ⟨r', hread, hfollows⟩ := follows_read (⟨t, hs⟩ :: outer) .empty c (by simp)
      exact ⟨r', hread, follows_enter hfollows⟩
    cases hs with
    | nil =>
      simp only [step]
      split
      · next question =>
        subst question
        exact ⟨_, rfl, follows_head outer t (Or.inr rfl)⟩
      · exact entered
    | cons b hs =>
      simp only [step]
      split
      · next ends =>
        have ordinary := not_mem_scanned_of_head (Or.inl ends)
        have longer : Follows ⟨outer, t, .head (b :: hs)⟩ c ⟨outer, t, .head (b :: (hs ++ [c]))⟩ :=
          follows_head outer t (Or.inl ordinary)
        refine ⟨_, rfl, ?_⟩
        exact follows_endHead longer
      · split
        · next headChar =>
          have ordinary := not_mem_scanned_of_head (Or.inr headChar)
          exact ⟨_, rfl, follows_head outer t (Or.inl ordinary)⟩
        · exact entered
  | set depth pending body => exact ⟨_, rfl, follows_readSet outer t depth pending body c⟩
  | interval body =>
    simp only [step]
    split
    · next close =>
      subst close
      refine ⟨_, rfl, follows_of_pending (by simp [cursor, Cursor.top]) rfl ?_ ?_⟩
      · simp [Tree.kinds, Unfinished.kinds]
      · simp [Tree.text, Unfinished.text]
    · next inner =>
      refine ⟨_, rfl, follows_of_pending (by simp [cursor, Cursor.top]) ?_ rfl ?_⟩
      · simp [cursor, Cursor.step, inner]
        rfl
      · simp [Unfinished.text]

/-- Reading a text of which every character is allowed: a scan goes along from end to end. -/
theorem exists_run {r : Reader} {cs : List Char} (h : r.cursor.AllowsAll cs) :
    ∃ r', r.run cs = some r' ∧ r'.cursor = r.cursor.after .interval cs ∧
      r'.kinds = r.kinds ++ (marks r.cursor cs).map Kind.ofStart ∧ r'.text = r.text ++ cs := by
  induction cs generalizing r with
  | nil => exact ⟨r, rfl, rfl, by simp [marks], by simp⟩
  | cons c rest ih =>
    obtain ⟨r₁, hstep, hfollows⟩ := follows_step h.1
    have tail := h.2
    rw [← hfollows.cursor] at tail
    obtain ⟨r', hrun, hcursor, hkinds, htext⟩ := ih tail
    refine ⟨r', ?_, ?_, ?_, ?_⟩
    · rw [run, hstep]
      exact hrun
    · rw [hcursor, hfollows.cursor, Cursor.after_cons]
    · rw [hkinds, hfollows.kinds, hfollows.cursor, marks]
      split <;> simp
    · rw [htext, hfollows.text, List.append_assoc]
      rfl

/-- At the top level nothing is open and nothing is unfinished. -/
theorem eq_of_cursor_eq_top {r : Reader} (h : r.cursor = .top) :
    r = ⟨[], r.current, .nothing⟩ := by
  obtain ⟨outer, t, unfinished⟩ := r
  cases unfinished with
  | nothing =>
    obtain rfl := cursor_eq_top_iff.1 h
    rfl
  | head hs => cases hs <;> simp [cursor, Cursor.top] at h
  | escape => simp [cursor, Cursor.top] at h
  | set depth pending body => simp [cursor, Cursor.top, List.replicate_succ] at h
  | interval body => simp [cursor, Cursor.top] at h

end Reader

/-- Self-contained texts can be read. The tree has the text that was read, and what stands in it
outside all groups begins at the marks. -/
theorem exists_reads {cs : List Char} (h : SelfContained cs) :
    ∃ t, Reads cs t ∧ t.text = cs ∧ t.kinds = (marks .top cs).map Kind.ofStart := by
  obtain ⟨r, hrun, hcursor, hkinds, htext⟩ := Reader.exists_run (r := .start) h.allowed
  rw [show Reader.start.cursor = .top from rfl] at hcursor hkinds
  have final := Reader.eq_of_cursor_eq_top (hcursor.trans h.closed)
  rw [final] at hrun hkinds htext
  refine ⟨r.current, hrun, ?_, ?_⟩
  · simpa [Reader.text, Reader.textIn, Reader.start, Tree.text, Unfinished.text] using htext
  · simpa [Reader.kinds, Reader.kindsIn, Reader.start, Tree.kinds, Unfinished.kinds] using hkinds

example : (read "a|(?:[]x])+").map Tree.kinds = some [.atom, .bar, .atom, .quantifier] := by
  decide

end TextMate.Regex
