import TextMate.Proofs.JsonSyntax

/-!
# Reading JSON

A reader of JSON that takes one character at a time. Lists and objects that are not closed yet stand on
a stack, so a text is read as a fold, and a text inside another is read in the same way on a higher
stack. It reads every text of a value as that value (`read?_of_isText`), so no text has two values.
-/

set_option autoImplicit false

namespace TextMate.Json

namespace Reader

/-- What is open: a list with its items, an object with its fields, or a field that has a name. -/
inductive Frame where
  | list (items : List Json)
  | object (fields : List (String × Json))
  | field (fields : List (String × Json)) (name : String)

/-- What the next character belongs to. -/
inductive Expect where
  /-- A value, or the end of a list without items. -/
  | value
  /-- A name, or the end of an object without fields. -/
  | name
  | colon
  /-- The end of the list or the object that `v` is in, or a comma. -/
  | after (v : Json)
  /-- More digits, or what comes after a number. -/
  | number (n : Nat)
  | word (rest : List Char) (v : Json)
  | chars (text : List Char)
  /-- The character behind a backslash. -/
  | escape (text : List Char)
  /-- The digits of a character code, after `count` digits with the value `code`. -/
  | code (text : List Char) (count code : Nat)

structure State where
  stack : List Frame
  expects : Expect

/-- The value of a decimal digit. -/
def digit? (c : Char) : Option Nat :=
  if c.isDigit then some (c.toNat - '0'.toNat) else none

/-- The first character of a value. -/
def stepValue (stack : List Frame) (c : Char) : Option State :=
  if IsBlank c then some ⟨stack, .value⟩
  else if c = '"' then some ⟨stack, .chars []⟩
  else if c = '[' then some ⟨.list [] :: stack, .value⟩
  else if c = '{' then some ⟨.object [] :: stack, .name⟩
  else if c = 'n' then some ⟨stack, .word ['u', 'l', 'l'] .null⟩
  else if c = 'f' then some ⟨stack, .word ['a', 'l', 's', 'e'] (.bool false)⟩
  else if c = 't' then some ⟨stack, .word ['r', 'u', 'e'] (.bool true)⟩
  else match digit? c, stack with
    | some d, _ => some ⟨stack, .number d⟩
    | none, .list [] :: rest => if c = ']' then some ⟨rest, .after (.list [])⟩ else none
    | none, _ => none

/-- The first character of a name. -/
def stepName (stack : List Frame) (c : Char) : Option State :=
  if IsBlank c then some ⟨stack, .name⟩
  else if c = '"' then some ⟨stack, .chars []⟩
  else match stack with
    | .object [] :: rest => if c = '\x7d' then some ⟨rest, .after (.object [])⟩ else none
    | _ => none

/-- A character behind a value. -/
def stepAfter (stack : List Frame) (v : Json) (c : Char) : Option State :=
  if IsBlank c then some ⟨stack, .after v⟩
  else match stack with
    | .list items :: rest =>
      if c = ',' then some ⟨.list (items ++ [v]) :: rest, .value⟩
      else if c = ']' then some ⟨rest, .after (.list (items ++ [v]))⟩
      else none
    | .field fields name :: rest =>
      if c = ',' then some ⟨.object (fields ++ [(name, v)]) :: rest, .name⟩
      else if c = '\x7d' then some ⟨rest, .after (.object (fields ++ [(name, v)]))⟩
      else none
    | _ => none

/-- The end of a string, which is a name if an object waits for one. -/
def endString (stack : List Frame) (text : String) : State :=
  match stack with
  | .object fields :: rest => ⟨.field fields text :: rest, .colon⟩
  | _ => ⟨stack, .after (.string text)⟩

/-- A character in a string. -/
def stepChars (stack : List Frame) (text : List Char) (c : Char) : Option State :=
  if c = '"' then some (endString stack (String.ofList text))
  else if c = '\\' then some ⟨stack, .escape text⟩
  else if c.toNat < 0x20 then none
  else some ⟨stack, .chars (text ++ [c])⟩

/-- A digit of a character code, which has four. Half of a surrogate pair is no character. -/
def stepCode (stack : List Frame) (text : List Char) (count code : Nat) (c : Char) : Option State :=
  match hexValue? c with
  | none => none
  | some d =>
    if count < 3 then some ⟨stack, .code text (count + 1) (code * 16 + d)⟩
    else if (code * 16 + d).isValidChar then
      some ⟨stack, .chars (text ++ [Char.ofNat (code * 16 + d)])⟩
    else none

/-- Reads one character. -/
def step (s : State) (c : Char) : Option State :=
  match s.expects with
  | .value => stepValue s.stack c
  | .name => stepName s.stack c
  | .colon =>
    if IsBlank c then some s else if c = ':' then some ⟨s.stack, .value⟩ else none
  | .after v => stepAfter s.stack v c
  | .number n =>
    match digit? c with
    | some d => if n = 0 then none else some ⟨s.stack, .number (10 * n + d)⟩
    | none => stepAfter s.stack (.number n) c
  | .word [] _ => none
  | .word [last] v => if c = last then some ⟨s.stack, .after v⟩ else none
  | .word (next :: rest) v => if c = next then some ⟨s.stack, .word rest v⟩ else none
  | .chars text => stepChars s.stack text c
  | .escape text =>
    if c = 'u' then some ⟨s.stack, .code text 0 0⟩
    else (escaped? c).map fun d => ⟨s.stack, .chars (text ++ [d])⟩
  | .code text count code => stepCode s.stack text count code c

/-- Reads several characters. -/
def run (s : State) (cs : List Char) : Option State :=
  cs.foldlM step s

/-- The value that has been read, if nothing is open. -/
def finish (s : State) : Option Json :=
  match s.stack, s.expects with
  | [], .after v => some v
  | [], .number n => some (.number n)
  | _, _ => none

end Reader

/-- The value of a text. -/
def read? (cs : List Char) : Option Json :=
  (Reader.run ⟨[], .value⟩ cs).bind Reader.finish

namespace Reader

variable {s t : State} {stack : List Frame} {v : Json}

theorem run_append {as : List Char} (h : run s as = some t) (bs : List Char) :
    run s (as ++ bs) = run t bs := by
  unfold run at h ⊢
  rw [List.foldlM_append, h]
  rfl

theorem run_cons {c : Char} (h : step s c = some t) (cs : List Char) : run s (c :: cs) = run t cs := by
  unfold run
  rw [List.foldlM_cons, h]
  rfl

section Blanks

variable {c : Char} (h : IsBlank c)

include h

theorem stepValue_blank : stepValue stack c = some ⟨stack, .value⟩ := by
  unfold stepValue
  exact if_pos h

theorem stepName_blank : stepName stack c = some ⟨stack, .name⟩ := by
  unfold stepName
  exact if_pos h

theorem stepAfter_blank : stepAfter stack v c = some ⟨stack, .after v⟩ := by
  unfold stepAfter
  exact if_pos h

theorem digit?_of_isBlank : digit? c = none := by
  rcases h with rfl | rfl | rfl | rfl <;> rfl

end Blanks

/-- A state that white space does not change. -/
theorem run_blank {ws : List Char} (blank : Blank ws)
    (h : ∀ c, IsBlank c → step s c = some s) : run s ws = some s := by
  induction ws with
  | nil => rfl
  | cons c ws ih =>
    obtain ⟨head, tail⟩ := List.forall_mem_cons.1 blank
    rw [run_cons (h c head)]
    exact ih tail

/-- A value has been read. Only a number may still go on. -/
def Rests (s : State) (stack : List Frame) (v : Json) : Prop :=
  s = ⟨stack, .after v⟩ ∨ ∃ n, v = .number n ∧ s = ⟨stack, .number n⟩

theorem Rests.step_eq {c : Char} (h : Rests s stack v) (other : digit? c = none) :
    step s c = stepAfter stack v c := by
  rcases h with rfl | ⟨n, rfl, rfl⟩
  · rfl
  · simp only [step, other]

theorem Rests.run_blanks {ws : List Char} (h : Rests s stack v) (blank : Blank ws) :
    ∃ t, run s ws = some t ∧ Rests t stack v := by
  cases ws with
  | nil => exact ⟨s, rfl, h⟩
  | cons c ws =>
    obtain ⟨head, tail⟩ := List.forall_mem_cons.1 blank
    have first : step s c = some ⟨stack, .after v⟩ := by
      rw [h.step_eq (digit?_of_isBlank head), stepAfter_blank head]
    refine ⟨⟨stack, .after v⟩, ?_, .inl rfl⟩
    rw [run_cons first]
    exact run_blank tail fun c space => stepAfter_blank space

theorem Rests.finish_eq (h : Rests s [] v) : finish s = some v := by
  rcases h with rfl | ⟨n, rfl, rfl⟩ <;> rfl

/-- A value may stand here: no object waits for a name. -/
def TakesValue : List Frame → Prop
  | .object _ :: _ => False
  | _ => True

theorem endString_of_takesValue (h : TakesValue stack) (text : String) :
    endString stack text = ⟨stack, .after (.string text)⟩ := by
  unfold endString
  split
  · cases h
  · rfl

section Strings

variable {text : List Char}

theorem run_spellsChar {c : Char} {cs : List Char} (h : SpellsChar c cs) :
    run ⟨stack, .chars text⟩ cs = some ⟨stack, .chars (text ++ [c])⟩ := by
  cases h with
  | plain printed quote backslash =>
    have only : step ⟨stack, .chars text⟩ c = some ⟨stack, .chars (text ++ [c])⟩ := by
      show stepChars stack text c = _
      rw [stepChars, if_neg quote, if_neg backslash, if_neg (Nat.not_lt.2 printed)]
    rw [run_cons only]
    rfl
  | @letter l named =>
    have other : l ≠ 'u' := by
      rintro rfl
      cases named
    have first : step ⟨stack, .chars text⟩ '\\' = some ⟨stack, .escape text⟩ := rfl
    have second : step ⟨stack, .escape text⟩ l = some ⟨stack, .chars (text ++ [c])⟩ := by
      simp only [step, if_neg other, named, Option.map_some]
    rw [run_cons first, run_cons second]
    rfl
  | @code a b d e i j k l ha hb hd he value =>
    have valid : (((i * 16 + j) * 16 + k) * 16 + l).isValidChar := value ▸ c.valid
    have char : Char.ofNat (((i * 16 + j) * 16 + k) * 16 + l) = c := by
      rw [← value, Char.ofNat_toNat]
    have first : step ⟨stack, .chars text⟩ '\\' = some ⟨stack, .escape text⟩ := rfl
    have second : step ⟨stack, .escape text⟩ 'u' = some ⟨stack, .code text 0 0⟩ := rfl
    rw [run_cons first, run_cons second]
    simp [run, step, stepCode, ha, hb, hd, he, valid, char]

theorem run_charsBy {more cs : List Char} (h : CharsBy SpellsChar more cs) :
    run ⟨stack, .chars text⟩ cs = some ⟨stack, .chars (text ++ more)⟩ := by
  induction h generalizing text with
  | nil =>
    rw [List.append_nil]
    rfl
  | cons head _ ih => rw [run_append (run_spellsChar head), ih, List.append_assoc, List.singleton_append]

/-- The rest of a string, up to its second quote. -/
theorem run_string {name : String} {cs : List Char} (h : CharsBy SpellsChar name.toList cs)
    (rest : List Char) :
    run ⟨stack, .chars []⟩ (cs ++ '"' :: rest) = run (endString stack name) rest := by
  have last : step ⟨stack, .chars name.toList⟩ '"' = some (endString stack name) := by
    show some (endString stack (String.ofList name.toList)) = _
    rw [String.ofList_toList]
  rw [run_append (run_charsBy h), List.nil_append, run_cons last]

end Strings

theorem digit?_digitChar {d : Nat} (h : d < 10) : digit? d.digitChar = some d := by
  have all : ∀ d : Fin 10, digit? d.1.digitChar = some d.1 := by decide
  exact all ⟨d, h⟩

theorem stepValue_digitChar {d : Nat} (h : d < 10) :
    stepValue stack d.digitChar = some ⟨stack, .number d⟩ := by
  have all : ∀ d : Fin 10, ¬ IsBlank d.1.digitChar ∧ d.1.digitChar ≠ '"' ∧ d.1.digitChar ≠ '[' ∧
      d.1.digitChar ≠ '\x7b' ∧ d.1.digitChar ≠ 'n' ∧ d.1.digitChar ≠ 'f' ∧ d.1.digitChar ≠ 't' := by
    decide
  obtain ⟨blank, quote, list, object, null, no, yes⟩ := all ⟨d, h⟩
  unfold stepValue
  rw [if_neg blank, if_neg quote, if_neg list, if_neg object, if_neg null, if_neg no, if_neg yes,
    digit?_digitChar h]

theorem run_spellsNumber {n : Nat} {cs : List Char} (h : SpellsNumber n cs) :
    run ⟨stack, .value⟩ cs = some ⟨stack, .number n⟩ := by
  induction h with
  | @digit d small =>
    have only : step ⟨stack, .value⟩ d.digitChar = some ⟨stack, .number d⟩ :=
      stepValue_digitChar small
    rw [run_cons only]
    rfl
  | @more n d cs nonzero _ small ih =>
    have last : step ⟨stack, .number n⟩ d.digitChar = some ⟨stack, .number (10 * n + d)⟩ := by
      simp only [step, digit?_digitChar small, if_neg nonzero]
    rw [run_append ih, run_cons last]
    rfl

/-- What reading a phrase leads to. Items and fields are read up to the bracket behind them. -/
def ReadsAs : Phrase → List Char → Prop
  | .value v, cs => ∀ stack, TakesValue stack → ∃ t, run ⟨stack, .value⟩ cs = some t ∧ Rests t stack v
  | .field name v, cs => ∀ fields stack, ∃ t, run ⟨.object fields :: stack, .name⟩ cs = some t ∧
      Rests t (.field fields name :: stack) v
  | .items vs, cs => ∀ items stack, run ⟨.list items :: stack, .value⟩ (cs ++ [']']) =
      some ⟨stack, .after (.list (items ++ vs))⟩
  | .fields fs, cs => ∀ fields stack, run ⟨.object fields :: stack, .name⟩ (cs ++ ['\x7d']) =
      some ⟨stack, .after (.object (fields ++ fs))⟩

section Padded

variable {ws cs ws' : List Char} (before : Blank ws) (behind : Blank ws')

include before behind

/-- A value with white space around it. -/
theorem run_paddedValue (h : ReadsAs (.value v) cs) (stack : List Frame) (takes : TakesValue stack) :
    ∃ t, run ⟨stack, .value⟩ (ws ++ (cs ++ ws')) = some t ∧ Rests t stack v := by
  have blanks : run ⟨stack, .value⟩ ws = some ⟨stack, .value⟩ :=
    run_blank before fun c space => stepValue_blank space
  obtain ⟨t, value, rests⟩ := h stack takes
  obtain ⟨t', more, rests⟩ := rests.run_blanks behind
  refine ⟨t', ?_, rests⟩
  rw [run_append blanks, run_append value, more]

/-- A field with white space around it. -/
theorem run_paddedField {name : String} (h : ReadsAs (.field name v) cs)
    (fields : List (String × Json)) (stack : List Frame) :
    ∃ t, run ⟨.object fields :: stack, .name⟩ (ws ++ (cs ++ ws')) = some t ∧
      Rests t (.field fields name :: stack) v := by
  have blanks : run ⟨.object fields :: stack, .name⟩ ws = some ⟨.object fields :: stack, .name⟩ :=
    run_blank before fun c space => stepName_blank space
  obtain ⟨t, field, rests⟩ := h fields stack
  obtain ⟨t', more, rests⟩ := rests.run_blanks behind
  refine ⟨t', ?_, rests⟩
  rw [run_append blanks, run_append field, more]

end Padded

/-- The reader reads every phrase. -/
theorem readsAs_of_spells {phrase : Phrase} {cs : List Char} (h : SpelledBy SpellsChar phrase cs) :
    ReadsAs phrase cs := by
  induction h with
  | null | false | true => exact fun stack _ => ⟨_, rfl, .inl rfl⟩
  | number spelled => exact fun stack _ => ⟨_, run_spellsNumber spelled, .inr ⟨_, rfl, rfl⟩⟩
  | @string text cs spelled =>
    intro stack takes
    have first : step ⟨stack, .value⟩ '"' = some ⟨stack, .chars []⟩ := rfl
    refine ⟨⟨stack, .after (.string text)⟩, ?_, .inl rfl⟩
    rw [run_cons first, run_string spelled, endString_of_takesValue takes]
    rfl
  | @emptyList ws blank =>
    intro stack _
    have first : step ⟨stack, .value⟩ '[' = some ⟨.list [] :: stack, .value⟩ := rfl
    have inside : run ⟨.list [] :: stack, .value⟩ ws = some ⟨.list [] :: stack, .value⟩ :=
      run_blank blank fun c space => stepValue_blank space
    refine ⟨⟨stack, .after (.list [])⟩, ?_, .inl rfl⟩
    rw [run_cons first, run_append inside]
    rfl
  | @list vs cs _ ih =>
    intro stack _
    have first : step ⟨stack, .value⟩ '[' = some ⟨.list [] :: stack, .value⟩ := rfl
    refine ⟨⟨stack, .after (.list vs)⟩, ?_, .inl rfl⟩
    rw [run_cons first]
    exact ih [] stack
  | @emptyObject ws blank =>
    intro stack _
    have first : step ⟨stack, .value⟩ '\x7b' = some ⟨.object [] :: stack, .name⟩ := rfl
    have inside : run ⟨.object [] :: stack, .name⟩ ws = some ⟨.object [] :: stack, .name⟩ :=
      run_blank blank fun c space => stepName_blank space
    refine ⟨⟨stack, .after (.object [])⟩, ?_, .inl rfl⟩
    rw [run_cons first, run_append inside]
    rfl
  | @object fs cs _ ih =>
    intro stack _
    have first : step ⟨stack, .value⟩ '\x7b' = some ⟨.object [] :: stack, .name⟩ := rfl
    refine ⟨⟨stack, .after (.object fs)⟩, ?_, .inl rfl⟩
    rw [run_cons first]
    exact ih [] stack
  | @field name v ns ws ws' cs spelled before behind _ ih =>
    intro fields stack
    have first : step ⟨.object fields :: stack, .name⟩ '"' =
        some ⟨.object fields :: stack, .chars []⟩ := rfl
    have blanks : run ⟨.field fields name :: stack, .colon⟩ ws =
        some ⟨.field fields name :: stack, .colon⟩ := run_blank before fun c space => if_pos space
    have colon : step ⟨.field fields name :: stack, .colon⟩ ':' =
        some ⟨.field fields name :: stack, .value⟩ := rfl
    have more : run ⟨.field fields name :: stack, .value⟩ ws' =
        some ⟨.field fields name :: stack, .value⟩ :=
      run_blank behind fun c space => stepValue_blank space
    obtain ⟨t, value, rests⟩ := ih (.field fields name :: stack) trivial
    refine ⟨t, ?_, rests⟩
    rw [run_cons first, run_string spelled]
    show run ⟨.field fields name :: stack, .colon⟩ _ = _
    rw [run_append blanks, run_cons colon, run_append more, value]
  | lastItem before _ behind ih =>
    intro items stack
    obtain ⟨t, value, rests⟩ := run_paddedValue before behind ih (.list items :: stack) trivial
    rw [run_append value, run_cons (rests.step_eq rfl)]
    rfl
  | @items v vs ws cs ws' rest before _ behind _ ih more =>
    intro items stack
    obtain ⟨t, value, rests⟩ := run_paddedValue before behind ih (.list items :: stack) trivial
    have comma : step t ',' = some ⟨.list (items ++ [v]) :: stack, .value⟩ := rests.step_eq rfl
    have split : ws ++ (cs ++ (ws' ++ ',' :: rest)) ++ [']'] =
        ws ++ (cs ++ ws') ++ ',' :: (rest ++ [']']) := by simp
    rw [split, run_append value, run_cons comma, more, List.append_assoc, List.singleton_append]
  | lastField before _ behind ih =>
    intro fields stack
    obtain ⟨t, field, rests⟩ := run_paddedField before behind ih fields stack
    rw [run_append field, run_cons (rests.step_eq rfl)]
    rfl
  | @fields name v fs ws cs ws' rest before _ behind _ ih more =>
    intro fields stack
    obtain ⟨t, field, rests⟩ := run_paddedField before behind ih fields stack
    have comma : step t ',' = some ⟨.object (fields ++ [(name, v)]) :: stack, .name⟩ :=
      rests.step_eq rfl
    have split : ws ++ (cs ++ (ws' ++ ',' :: rest)) ++ ['\x7d'] =
        ws ++ (cs ++ ws') ++ ',' :: (rest ++ ['\x7d']) := by simp
    rw [split, run_append field, run_cons comma, more, List.append_assoc, List.singleton_append]

end Reader

/-- The value of a text is the one that is read. -/
theorem read?_of_isText {v : Json} {cs : List Char} (h : IsText v cs) : read? cs = some v := by
  cases h with
  | value before spelled behind =>
    obtain ⟨t, value, rests⟩ :=
      Reader.run_paddedValue before behind (Reader.readsAs_of_spells spelled) [] trivial
    rw [read?, value, Option.bind_some, rests.finish_eq]

end TextMate.Json
