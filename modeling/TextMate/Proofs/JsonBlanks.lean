import TextMate.Proofs.JsonSyntax

/-!
# White space in JSON

Whether white space belongs to a string can be told while the text is read from left to right. All texts
of a value in which characters are escaped alike have the same text left without the white space outside
strings (`withoutBlanks_of_isTextBy`). So it is enough to know of a writer that it follows the syntax, that it
escapes in one way and that one of its layouts has no white space (`Writer.Follows`).
-/

set_option autoImplicit false

namespace TextMate.Json

/-- Where a character stands: outside strings, in a string, or behind a backslash in a string. -/
inductive Position where
  | outside
  | inside
  | escaped
  deriving DecidableEq

/-- The position behind a character. -/
def Position.next (c : Char) : Position → Position
  | outside => if c = '"' then inside else outside
  | inside => if c = '"' then outside else if c = '\\' then escaped else inside
  | escaped => inside

/-- The text without the white space outside strings. -/
def withoutBlanks (at' : Position) : List Char → List Char
  | [] => []
  | c :: cs =>
    if at' = .outside ∧ IsBlank c then withoutBlanks at' cs else c :: withoutBlanks (at'.next c) cs

/-- A character that stays outside strings and leaves them outside. -/
def isToken (c : Char) : Bool :=
  decide (¬ IsBlank c ∧ c ≠ '"')

/-- Outside strings `cs` turns into `ds`, whatever comes behind it. -/
def Strips (cs ds : List Char) : Prop :=
  ∀ rest, withoutBlanks .outside (cs ++ rest) = ds ++ withoutBlanks .outside rest

section Tokens

variable {as bs cs ds ws : List Char} {c : Char}

theorem Strips.append (first : Strips as bs) (second : Strips cs ds) : Strips (as ++ cs) (bs ++ ds) := by
  intro rest
  rw [List.append_assoc, first, second, List.append_assoc]

theorem strips_nil : Strips [] [] := fun _ => rfl

theorem strips_blank (h : Blank ws) : Strips ws [] := by
  intro rest
  induction ws with
  | nil => rfl
  | cons c ws ih =>
    obtain ⟨head, tail⟩ := List.forall_mem_cons.1 h
    rw [List.cons_append, withoutBlanks, if_pos ⟨rfl, head⟩]
    exact ih tail

/-- A character that is neither white space nor a quote stays. -/
theorem Strips.cons (h : Strips cs ds) (stays : isToken c = true) : Strips (c :: cs) (c :: ds) := by
  rw [isToken, decide_eq_true_eq] at stays
  obtain ⟨blank, quote⟩ := stays
  intro rest
  rw [List.cons_append, withoutBlanks, if_neg (fun h => blank h.2), Position.next, if_neg quote, h]
  rfl

theorem strips_tokens (h : cs.all isToken = true) : Strips cs cs := by
  induction cs with
  | nil => exact strips_nil
  | cons c cs ih =>
    rw [List.all_cons, Bool.and_eq_true] at h
    exact (ih h.2).cons h.1

end Tokens

section Strings

variable {c : Char}

/-- A character in a string that is neither a quote nor a backslash. -/
theorem withoutBlanks_plain (quote : c ≠ '"') (backslash : c ≠ '\\') (rest : List Char) :
    withoutBlanks .inside (c :: rest) = c :: withoutBlanks .inside rest := by
  rw [withoutBlanks, if_neg (fun h => nomatch h.1), Position.next, if_neg quote, if_neg backslash]

theorem withoutBlanks_escape (c : Char) (rest : List Char) :
    withoutBlanks .inside ('\\' :: c :: rest) = '\\' :: c :: withoutBlanks .inside rest := by
  rw [withoutBlanks, if_neg (fun h => nomatch h.1), Position.next, if_neg (by decide), if_pos rfl,
    withoutBlanks, if_neg (fun h => nomatch h.1), Position.next]

theorem ne_of_hexValue? {n : Nat} (h : hexValue? c = some n) : c ≠ '"' ∧ c ≠ '\\' := by
  constructor <;> rintro rfl <;> cases h

/-- Behind a character that is spelled in a string, the string goes on. -/
theorem withoutBlanks_spellsChar {cs : List Char} (h : SpellsChar c cs) (rest : List Char) :
    withoutBlanks .inside (cs ++ rest) = cs ++ withoutBlanks .inside rest := by
  cases h with
  | plain _ quote backslash => exact withoutBlanks_plain quote backslash rest
  | @letter l _ => exact withoutBlanks_escape l rest
  | @code a b d e _ _ _ _ ha hb hd he =>
    show withoutBlanks .inside ('\\' :: 'u' :: a :: b :: d :: e :: rest) = _
    rw [withoutBlanks_escape, withoutBlanks_plain (ne_of_hexValue? ha).1 (ne_of_hexValue? ha).2,
      withoutBlanks_plain (ne_of_hexValue? hb).1 (ne_of_hexValue? hb).2,
      withoutBlanks_plain (ne_of_hexValue? hd).1 (ne_of_hexValue? hd).2,
      withoutBlanks_plain (ne_of_hexValue? he).1 (ne_of_hexValue? he).2]
    rfl

/-- Nothing in a string changes. -/
theorem strips_chars {text cs : List Char} (h : CharsBy SpellsChar text cs) :
    Strips ('"' :: (cs ++ ['"'])) ('"' :: (cs ++ ['"'])) := by
  intro rest
  have body : withoutBlanks .inside (cs ++ '"' :: rest) = cs ++ '"' :: withoutBlanks .outside rest := by
    induction h with
    | nil =>
      rw [List.nil_append, withoutBlanks, if_neg (fun h => nomatch h.1)]
      rfl
    | cons head _ ih => rw [List.append_assoc, withoutBlanks_spellsChar head, ih, List.append_assoc]
  have first : withoutBlanks .outside ('"' :: (cs ++ '"' :: rest)) =
      '"' :: withoutBlanks .inside (cs ++ '"' :: rest) := by
    rw [withoutBlanks, if_neg (by decide)]
    rfl
  have split (tail : List Char) : '"' :: (cs ++ ['"']) ++ tail = '"' :: (cs ++ '"' :: tail) := by simp
  rw [split, split, first, body]

end Strings

section Spelled

variable {escape : Char → List Char} {depth : Nat}

/-- The digits of a number stay. -/
theorem strips_spellsNumber {n : Nat} {cs : List Char} (h : SpellsNumber n cs) : Strips cs cs := by
  have digit {d : Nat} (small : d < 10) : Strips [d.digitChar] [d.digitChar] := by
    have all : ∀ d : Fin 10, isToken d.1.digitChar = true := by decide
    exact strips_nil.cons (all ⟨d, small⟩)
  induction h with
  | digit small => exact digit small
  | more _ _ small ih => exact ih.append (digit small)

theorem write_compact_list (v : Json) (vs : List Json) :
    write escape .compact depth (.list (v :: vs)) =
      '[' :: (write escape .compact (depth + 1) v ++ writeItems escape .compact (depth + 1) vs ++ [']']) := by
  simp [write, Layout.compact]

theorem write_compact_object (name : String) (v : Json) (fs : List (String × Json)) :
    write escape .compact depth (.object ((name, v) :: fs)) =
      '\x7b' :: (writeString escape name ++ ':' :: write escape .compact (depth + 1) v ++
        writeFields escape .compact (depth + 1) fs ++ ['\x7d']) := by
  simp [write, Layout.compact]

theorem writeItems_compact_cons (v : Json) (vs : List Json) :
    writeItems escape .compact depth (v :: vs) =
      ',' :: (write escape .compact depth v ++ writeItems escape .compact depth vs) := by
  simp [writeItems, Layout.compact]

theorem writeFields_compact_cons (name : String) (v : Json) (fs : List (String × Json)) :
    writeFields escape .compact depth ((name, v) :: fs) =
      ',' :: (writeString escape name ++ ':' :: write escape .compact depth v ++
        writeFields escape .compact depth fs) := by
  simp [writeFields, Layout.compact]

/-- What a text of a phrase turns into. Nothing spells an empty row of items or fields. -/
def IsStripped (escape : Char → List Char) : Phrase → List Char → Prop
  | .value v, cs => ∀ depth, Strips cs (write escape .compact depth v)
  | .field name v, cs => ∀ depth, Strips cs (writeString escape name ++ ':' :: write escape .compact depth v)
  | .items [], _ | .fields [], _ => False
  | .items (v :: vs), cs =>
    ∀ depth, Strips cs (write escape .compact depth v ++ writeItems escape .compact depth vs)
  | .fields ((name, v) :: fs), cs =>
    ∀ depth, Strips cs (writeString escape name ++ ':' :: write escape .compact depth v ++
      writeFields escape .compact depth fs)

/-- White space around a text is lost. -/
theorem Strips.padded {ws cs ds ws' : List Char} (h : Strips cs ds) (before : Blank ws) (behind : Blank ws') :
    Strips (ws ++ (cs ++ ws')) ds := by
  have whole := (strips_blank before).append (h.append (strips_blank behind))
  rwa [List.nil_append, List.append_nil] at whole

/-- The white space in a text is lost, whatever the text. -/
theorem isStripped_of_spelledBy (valid : ∀ c, SpellsChar c (escape c)) {phrase : Phrase} {cs : List Char}
    (h : SpelledBy (EscapedBy escape) phrase cs) : IsStripped escape phrase cs := by
  have chars {text : String} {cs : List Char} (h : CharsBy (EscapedBy escape) text.toList cs) :
      Strips ('"' :: (cs ++ ['"'])) (writeString escape text) := by
    have same : writeString escape text = '"' :: (cs ++ ['"']) := by
      rw [h.eq_flatMap]
      rfl
    rw [same]
    exact strips_chars (h.mono fun c cs written => written ▸ valid c)
  induction h with
  | null => exact fun _ => @strips_tokens ['n', 'u', 'l', 'l'] (by decide)
  | false => exact fun _ => @strips_tokens ['f', 'a', 'l', 's', 'e'] (by decide)
  | true => exact fun _ => @strips_tokens ['t', 'r', 'u', 'e'] (by decide)
  | number spelled =>
    intro depth
    rw [write, ← spelled.eq]
    exact strips_spellsNumber spelled
  | string spelled => exact fun _ => chars spelled
  | emptyList blank =>
    exact fun _ => ((strips_blank blank).append (@strips_tokens [']'] rfl)).cons rfl
  | @list vs cs _ ih =>
    cases vs with
    | nil => exact ih.elim
    | cons v vs =>
      intro depth
      rw [write_compact_list]
      exact ((ih (depth + 1)).append (strips_tokens rfl)).cons rfl
  | emptyObject blank =>
    exact fun _ => ((strips_blank blank).append (@strips_tokens ['\x7d'] rfl)).cons rfl
  | @object fs cs _ ih =>
    cases fs with
    | nil => exact ih.elim
    | cons e fs =>
      intro depth
      rw [write_compact_object]
      exact ((ih (depth + 1)).append (strips_tokens rfl)).cons rfl
  | @field name v ns ws ws' cs spelled before behind _ ih =>
    intro depth
    have colon : Strips (ws ++ ':' :: (ws' ++ cs)) (':' :: write escape .compact depth v) :=
      (strips_blank before).append (((strips_blank behind).append (ih depth)).cons rfl)
    have whole := (chars spelled).append colon
    simpa using whole
  | lastItem before _ behind ih =>
    intro depth
    rw [writeItems, List.append_nil]
    exact (ih depth).padded before behind
  | @items v vs ws cs ws' rest before _ behind _ ih more =>
    cases vs with
    | nil => exact more.elim
    | cons next vs =>
      intro depth
      have whole := ((ih depth).padded before behind).append ((more depth).cons (c := ',') rfl)
      rw [writeItems_compact_cons]
      simpa using whole
  | lastField before _ behind ih =>
    intro depth
    rw [writeFields, List.append_nil]
    exact (ih depth).padded before behind
  | @fields name v fs ws cs ws' rest before _ behind _ ih more =>
    cases fs with
    | nil => exact more.elim
    | cons next fs =>
      intro depth
      have whole := ((ih depth).padded before behind).append ((more depth).cons (c := ',') rfl)
      rw [writeFields_compact_cons]
      simpa using whole

/-- The value and the escapes say what is left of a text. -/
theorem withoutBlanks_of_isTextBy (valid : ∀ c, SpellsChar c (escape c)) {v : Json} {cs : List Char}
    (h : IsTextBy (EscapedBy escape) v cs) : withoutBlanks .outside cs = write escape .compact 0 v := by
  cases h with
  | value before spelled behind =>
    have stripped := (isStripped_of_spelledBy valid spelled 0).padded before behind []
    rwa [List.append_nil, withoutBlanks, List.append_nil] at stripped

end Spelled

section Writers

/-- What is known of a writer that writes the character `c` of a string as `escape c`. -/
structure Writer.Follows (w : Writer) (escape : Char → List Char) : Prop where
  /-- This is one of the ways to write `c`. -/
  escapes : ∀ c, SpellsChar c (escape c)
  /-- What is written for a value is a text of it, with the fields in their order. -/
  spells : ∀ pretty v text, w.write pretty v = .ok text → IsTextBy (EscapedBy escape) v text.toList
  /-- Without line breaks there is no white space outside strings at all. -/
  compact : ∀ v text, w.compact v = .ok text → withoutBlanks .outside text.toList = text.toList

/-- The writer fails on no value. -/
def Writer.IsTotal (w : Writer) : Prop :=
  ∀ pretty v, ∃ text, w.write pretty v = .ok text

variable {w : Writer} {escape : Char → List Char} {v : Json} {text : String}

theorem Writer.Follows.isText (h : w.Follows escape) {pretty : Bool}
    (written : w.write pretty v = .ok text) : IsText v text.toList :=
  (h.spells pretty v text written).mono fun c _ same => same ▸ h.escapes c

/-- What is left of a text without its white space is the text without line breaks. -/
theorem Writer.Follows.withoutBlanks_eq (h : w.Follows escape) {pretty : Bool} {short : String}
    (written : w.write pretty v = .ok text) (compact : w.compact v = .ok short) :
    withoutBlanks .outside text.toList = short.toList := by
  have left := withoutBlanks_of_isTextBy h.escapes (h.spells pretty v text written)
  have left' := withoutBlanks_of_isTextBy h.escapes (h.spells false v short compact)
  rw [left, ← left', h.compact v short compact]

theorem indenting_isTotal : indenting.IsTotal := by
  intro pretty v
  cases pretty <;> exact ⟨_, rfl⟩

theorem indenting_follows : indenting.Follows writeChar where
  escapes := spellsChar_writeChar
  spells pretty v text written := by
    cases pretty <;> cases written
    · rw [Json.compact, String.toList_ofList]
      exact isTextBy_write Layout.compact_isBlank v
    · rw [Json.pretty, String.toList_ofList]
      exact isTextBy_write Layout.pretty_isBlank v
  compact v text written := by
    cases written
    rw [Json.compact, String.toList_ofList]
    exact withoutBlanks_of_isTextBy spellsChar_writeChar (isTextBy_write Layout.compact_isBlank v)

end Writers

end TextMate.Json
