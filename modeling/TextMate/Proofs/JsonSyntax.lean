import TextMate.Json.Layout

/-!
# The syntax of JSON

`SpelledBy` relates the phrases of JSON to their texts, for values without fractions, exponents and signs.
White space may stand around every token, and a rule says how characters stand in strings. JSON has several
ways for many of them (`SpellsChar`), a writer keeps to one. Whatever is written under a layout of white space
is JSON (`isTextBy_write`).
-/

set_option autoImplicit false

namespace TextMate.Json

/-- White space between tokens. -/
def IsBlank (c : Char) : Prop :=
  c = ' ' ∨ c = '\t' ∨ c = '\n' ∨ c = '\r'

instance (c : Char) : Decidable (IsBlank c) :=
  inferInstanceAs (Decidable (_ ∨ _))

def Blank (cs : List Char) : Prop :=
  ∀ c ∈ cs, IsBlank c

theorem blank_nil : Blank [] := nofun

/-- The value of a hexadecimal digit. -/
def hexValue? (c : Char) : Option Nat :=
  if '0' ≤ c ∧ c ≤ '9' then some (c.toNat - '0'.toNat)
  else if 'a' ≤ c ∧ c ≤ 'f' then some (c.toNat - 'a'.toNat + 10)
  else if 'A' ≤ c ∧ c ≤ 'F' then some (c.toNat - 'A'.toNat + 10)
  else none

/-- The character that a letter behind a backslash stands for. -/
def escaped? (c : Char) : Option Char :=
  if c = '"' ∨ c = '\\' ∨ c = '/' then some c
  else if c = 'b' then some '\x08'
  else if c = 'f' then some '\x0c'
  else if c = 'n' then some '\n'
  else if c = 'r' then some '\r'
  else if c = 't' then some '\t'
  else none

/-- The ways to write a character in a string. -/
inductive SpellsChar (c : Char) : List Char → Prop where
  | plain : 0x20 ≤ c.toNat → c ≠ '"' → c ≠ '\\' → SpellsChar c [c]
  | letter {l : Char} : escaped? l = some c → SpellsChar c ['\\', l]
  | code {a b d e : Char} {i j k l : Nat} :
      hexValue? a = some i → hexValue? b = some j → hexValue? d = some k → hexValue? e = some l →
      c.toNat = ((i * 16 + j) * 16 + k) * 16 + l → SpellsChar c ['\\', 'u', a, b, d, e]

/-- The characters between the quotes of a string. -/
inductive CharsBy (rule : Char → List Char → Prop) : List Char → List Char → Prop where
  | nil : CharsBy rule [] []
  | cons {c : Char} {text cs rest : List Char} :
      rule c cs → CharsBy rule text rest → CharsBy rule (c :: text) (cs ++ rest)

/-- A natural number in decimal digits, without a zero in front. -/
inductive SpellsNumber : Nat → List Char → Prop where
  | digit {d : Nat} : d < 10 → SpellsNumber d [d.digitChar]
  | more {n d : Nat} {cs : List Char} :
      n ≠ 0 → SpellsNumber n cs → d < 10 → SpellsNumber (10 * n + d) (cs ++ [d.digitChar])

/-- What a text of JSON may stand for: a value, a name with a value, or one or more of them with commas
between them. -/
inductive Phrase where
  | value (v : Json)
  | field (name : String) (v : Json)
  | items (vs : List Json)
  | fields (fs : List (String × Json))

/-- A phrase and one of its texts. -/
inductive SpelledBy (rule : Char → List Char → Prop) : Phrase → List Char → Prop where
  | null : SpelledBy rule (.value .null) ['n', 'u', 'l', 'l']
  | false : SpelledBy rule (.value (.bool false)) ['f', 'a', 'l', 's', 'e']
  | true : SpelledBy rule (.value (.bool true)) ['t', 'r', 'u', 'e']
  | number {n : Nat} {cs : List Char} : SpellsNumber n cs → SpelledBy rule (.value (.number n)) cs
  | string {text : String} {cs : List Char} :
      CharsBy rule text.toList cs → SpelledBy rule (.value (.string text)) ('"' :: (cs ++ ['"']))
  | emptyList {ws : List Char} : Blank ws → SpelledBy rule (.value (.list [])) ('[' :: (ws ++ [']']))
  | list {vs : List Json} {cs : List Char} :
      SpelledBy rule (.items vs) cs → SpelledBy rule (.value (.list vs)) ('[' :: (cs ++ [']']))
  | emptyObject {ws : List Char} :
      Blank ws → SpelledBy rule (.value (.object [])) ('{' :: (ws ++ ['}']))
  | object {fs : List (String × Json)} {cs : List Char} :
      SpelledBy rule (.fields fs) cs → SpelledBy rule (.value (.object fs)) ('{' :: (cs ++ ['}']))
  | field {name : String} {v : Json} {ns ws ws' cs : List Char} :
      CharsBy rule name.toList ns → Blank ws → Blank ws' → SpelledBy rule (.value v) cs →
      SpelledBy rule (.field name v) ('"' :: (ns ++ '"' :: (ws ++ ':' :: (ws' ++ cs))))
  | lastItem {v : Json} {ws cs ws' : List Char} :
      Blank ws → SpelledBy rule (.value v) cs → Blank ws' → SpelledBy rule (.items [v]) (ws ++ (cs ++ ws'))
  | items {v : Json} {vs : List Json} {ws cs ws' rest : List Char} :
      Blank ws → SpelledBy rule (.value v) cs → Blank ws' → SpelledBy rule (.items vs) rest →
      SpelledBy rule (.items (v :: vs)) (ws ++ (cs ++ (ws' ++ ',' :: rest)))
  | lastField {name : String} {v : Json} {ws cs ws' : List Char} :
      Blank ws → SpelledBy rule (.field name v) cs → Blank ws' →
      SpelledBy rule (.fields [(name, v)]) (ws ++ (cs ++ ws'))
  | fields {name : String} {v : Json} {fs : List (String × Json)} {ws cs ws' rest : List Char} :
      Blank ws → SpelledBy rule (.field name v) cs → Blank ws' → SpelledBy rule (.fields fs) rest →
      SpelledBy rule (.fields ((name, v) :: fs)) (ws ++ (cs ++ (ws' ++ ',' :: rest)))

/-- A text has one value, with white space around it. -/
inductive IsTextBy (rule : Char → List Char → Prop) (v : Json) : List Char → Prop where
  | value {ws cs ws' : List Char} :
      Blank ws → SpelledBy rule (.value v) cs → Blank ws' → IsTextBy rule v (ws ++ (cs ++ ws'))

/-- The text is JSON, with characters written in any of the ways of JSON. -/
abbrev IsText (v : Json) (cs : List Char) : Prop :=
  IsTextBy SpellsChar v cs

section Rules

variable {rule rule' : Char → List Char → Prop}

theorem CharsBy.mono (weaker : ∀ c cs, rule c cs → rule' c cs) {text cs : List Char}
    (h : CharsBy rule text cs) : CharsBy rule' text cs := by
  induction h with
  | nil => exact .nil
  | cons head _ ih => exact .cons (weaker _ _ head) ih

/-- What is spelled by a rule is spelled by every weaker one. -/
theorem SpelledBy.mono (weaker : ∀ c cs, rule c cs → rule' c cs) {phrase : Phrase} {cs : List Char}
    (h : SpelledBy rule phrase cs) : SpelledBy rule' phrase cs := by
  induction h with
  | null => exact .null
  | false => exact .false
  | true => exact .true
  | number spelled => exact .number spelled
  | string spelled => exact .string (spelled.mono weaker)
  | emptyList blank => exact .emptyList blank
  | list _ ih => exact .list ih
  | emptyObject blank => exact .emptyObject blank
  | object _ ih => exact .object ih
  | field spelled before behind _ ih => exact .field (spelled.mono weaker) before behind ih
  | lastItem before _ behind ih => exact .lastItem before ih behind
  | items before _ behind _ ih more => exact .items before ih behind more
  | lastField before _ behind ih => exact .lastField before ih behind
  | fields before _ behind _ ih more => exact .fields before ih behind more

theorem IsTextBy.mono (weaker : ∀ c cs, rule c cs → rule' c cs) {v : Json} {cs : List Char}
    (h : IsTextBy rule v cs) : IsTextBy rule' v cs := by
  cases h with
  | value before spelled behind => exact .value before (spelled.mono weaker) behind

theorem SpelledBy.isTextBy {v : Json} {cs : List Char} (h : SpelledBy rule (.value v) cs) :
    IsTextBy rule v cs := by
  have whole := IsTextBy.value blank_nil h blank_nil
  rwa [List.nil_append, List.append_nil] at whole

end Rules

/-- A property of all values, from the values inside a value to the value itself. -/
@[elab_as_elim]
theorem ind {motive : Json → Prop} (null : motive .null) (bool : ∀ value, motive (.bool value))
    (number : ∀ value, motive (.number value)) (string : ∀ value, motive (.string value))
    (list : ∀ items, (∀ v ∈ items, motive v) → motive (.list items))
    (object : ∀ fields : List (String × Json), (∀ e ∈ fields, motive e.2) → motive (.object fields))
    (v : Json) : motive v := by
  refine @Json.rec motive (fun items => ∀ v ∈ items, motive v)
    (fun fields => ∀ e ∈ fields, motive e.2) (fun e => motive e.2) null bool number string list object
    ?_ ?_ ?_ ?_ ?_ v
  · exact nofun
  · intro item items head tail
    exact List.forall_mem_cons.2 ⟨head, tail⟩
  · exact nofun
  · intro e fields head tail
    exact List.forall_mem_cons.2 ⟨head, tail⟩
  · intro name value inside
    exact inside

section Written

theorem hexValue?_hexDigit {n : Nat} (h : n < 16) : hexValue? (hexDigit n) = some n := by
  have all : ∀ n : Fin 16, hexValue? (hexDigit n) = some n.1 := by decide
  exact all ⟨n, h⟩

theorem spellsChar_writeChar (c : Char) : SpellsChar c (writeChar c) := by
  unfold writeChar
  split
  · next quote => exact .letter (by rw [quote]; rfl)
  split
  · next backslash => exact .letter (by rw [backslash]; rfl)
  split
  · next backspace => exact .letter (by rw [backspace]; rfl)
  split
  · next feed => exact .letter (by rw [feed]; rfl)
  split
  · next line => exact .letter (by rw [line]; rfl)
  split
  · next back => exact .letter (by rw [back]; rfl)
  split
  · next tab => exact .letter (by rw [tab]; rfl)
  split
  · next control =>
    have high : c.toNat / 16 < 16 := by omega
    have low : c.toNat % 16 < 16 := by omega
    refine .code (i := 0) (j := 0) rfl rfl (hexValue?_hexDigit high) (hexValue?_hexDigit low) ?_
    omega
  · next quote backslash _ _ _ _ _ printed => exact .plain (Nat.le_of_not_lt printed) quote backslash

theorem SpellsNumber.eq {n : Nat} {cs : List Char} (h : SpellsNumber n cs) : cs = n.repr.toList := by
  rw [Nat.toList_repr]
  induction h with
  | digit small => exact (Nat.toDigits_of_lt_base small).symm
  | @more n d cs nonzero _ small ih =>
    rw [Nat.toDigits_of_base_le (by decide) (by omega), ih]
    congr 2
    · omega
    · congr 1
      omega

theorem spellsNumber_repr (n : Nat) : SpellsNumber n n.repr.toList := by
  rw [Nat.toList_repr]
  induction n using Nat.strongRecOn with
  | ind n ih =>
    by_cases small : n < 10
    · rw [Nat.toDigits_of_lt_base small]
      exact .digit small
    · rw [Nat.toDigits_of_base_le (by decide) (Nat.le_of_not_lt small)]
      have fewer := ih (n / 10) (by omega)
      have last : n % 10 < 10 := Nat.mod_lt n (by decide)
      have whole := SpellsNumber.more (by omega) fewer last
      rwa [Nat.div_add_mod] at whole

/-- What stands between the tokens is white space. -/
structure Layout.IsBlank (layout : Layout) : Prop where
  lineBreak : ∀ depth, Blank (layout.lineBreak depth)
  afterName : Blank layout.afterName

theorem Layout.compact_isBlank : compact.IsBlank where
  lineBreak _ := blank_nil
  afterName := blank_nil

theorem Layout.pretty_isBlank : pretty.IsBlank where
  lineBreak depth := by
    intro c mem
    rcases List.mem_cons.1 mem with rfl | space
    · exact .inr (.inr (.inl rfl))
    · exact .inl (List.eq_of_mem_replicate space)
  afterName := by
    intro c mem
    exact .inl (List.mem_singleton.1 mem)

/-- Every character is always written as `escape` says. -/
def EscapedBy (escape : Char → List Char) (c : Char) (cs : List Char) : Prop :=
  cs = escape c

variable {escape : Char → List Char} {layout : Layout} {depth : Nat}

theorem charsBy_flatMap (escape : Char → List Char) (text : List Char) :
    CharsBy (EscapedBy escape) text (text.flatMap escape) := by
  induction text with
  | nil => exact .nil
  | cons c text ih => exact .cons rfl ih

theorem CharsBy.eq_flatMap {text cs : List Char} (h : CharsBy (EscapedBy escape) text cs) :
    cs = text.flatMap escape := by
  induction h with
  | nil => rfl
  | cons head _ ih => rw [head, ih, List.flatMap_cons]

theorem spells_writeItems (blank : layout.IsBlank) {v : Json} {vs : List Json} {close : List Char}
    (h : ∀ x ∈ v :: vs, SpelledBy (EscapedBy escape) (.value x) (write escape layout depth x))
    (last : Blank close) :
    SpelledBy (EscapedBy escape) (.items (v :: vs)) (layout.lineBreak depth ++
      (write escape layout depth v ++ (writeItems escape layout depth vs ++ close))) := by
  induction vs generalizing v with
  | nil =>
    obtain ⟨head, -⟩ := List.forall_mem_cons.1 h
    exact .lastItem (blank.lineBreak depth) head last
  | cons next vs ih =>
    obtain ⟨head, tail⟩ := List.forall_mem_cons.1 h
    have whole := SpelledBy.items (blank.lineBreak depth) head blank_nil (ih tail)
    rw [writeItems]
    simpa using whole

theorem spells_writeField (blank : layout.IsBlank) (name : String) {v : Json}
    (h : SpelledBy (EscapedBy escape) (.value v) (write escape layout depth v)) :
    SpelledBy (EscapedBy escape) (.field name v)
      (writeString escape name ++ ':' :: layout.afterName ++ write escape layout depth v) := by
  have whole := SpelledBy.field (charsBy_flatMap escape name.toList) blank_nil blank.afterName h
  simpa [writeString] using whole

theorem spells_writeFields (blank : layout.IsBlank) {name : String} {v : Json}
    {fs : List (String × Json)} {close : List Char}
    (h : ∀ e ∈ (name, v) :: fs, SpelledBy (EscapedBy escape) (.value e.2) (write escape layout depth e.2))
    (last : Blank close) :
    SpelledBy (EscapedBy escape) (.fields ((name, v) :: fs)) (layout.lineBreak depth ++
      (writeString escape name ++ ':' :: layout.afterName ++ write escape layout depth v ++
        (writeFields escape layout depth fs ++ close))) := by
  induction fs generalizing name v with
  | nil =>
    obtain ⟨head, -⟩ := List.forall_mem_cons.1 h
    exact .lastField (blank.lineBreak depth) (spells_writeField blank name head) last
  | cons next fs ih =>
    obtain ⟨head, tail⟩ := List.forall_mem_cons.1 h
    have whole :=
      SpelledBy.fields (blank.lineBreak depth) (spells_writeField blank name head) blank_nil (ih tail)
    rw [writeFields]
    simpa using whole

/-- A written value is spelled. -/
theorem spells_write (blank : layout.IsBlank) (v : Json) (depth : Nat) :
    SpelledBy (EscapedBy escape) (.value v) (write escape layout depth v) := by
  induction v using ind generalizing depth with
  | null => exact .null
  | bool value =>
    cases value with
    | false => exact .false
    | true => exact .true
  | number n => exact .number (spellsNumber_repr n)
  | string text => exact .string (charsBy_flatMap escape text.toList)
  | list items ih =>
    cases items with
    | nil => exact .emptyList blank_nil
    | cons item items =>
      have inside := spells_writeItems blank (fun v mem => ih v mem (depth + 1))
        (blank.lineBreak depth)
      have whole := SpelledBy.list inside
      rw [write]
      simpa using whole
  | object fields ih =>
    cases fields with
    | nil => exact .emptyObject blank_nil
    | cons e fields =>
      have inside := spells_writeFields blank (fun v mem => ih v mem (depth + 1))
        (blank.lineBreak depth)
      have whole := SpelledBy.object inside
      rw [write]
      simpa using whole

theorem isTextBy_write (blank : layout.IsBlank) (v : Json) :
    IsTextBy (EscapedBy escape) v (write escape layout 0 v) :=
  (spells_write blank v 0).isTextBy

end Written

end TextMate.Json
