import TextMate.GrammarFile.Json
import TextMate.Proofs.JsonBlanks
import TextMate.Proofs.JsonReader
import TextMate.Proofs.Places

/-!
# Decoding finished grammars

What a value of JSON says about rules. The kind of a rule shows in the names of its fields, a field that
is absent is none or empty, and the names of captures are numbers. Every finished grammar is decoded
from its own value (`file?_toJson`), so nothing is lost in the texts of a writer that follows the syntax of
JSON (`text_losesNothing`).
-/

set_option autoImplicit false

namespace TextMate

/-- A property of all rules, from the rules in the list and in the captures of a rule to the rule
itself. -/
@[elab_as_elim]
theorem Rule.ind {motive : Rule → Prop}
    (step : ∀ rule : Rule, (∀ r ∈ rule.inner, motive r) →
      (∀ regex ∈ rule.regexes, ∀ c ∈ regex.2.2, ∀ r ∈ c.2.patterns, motive r) → motive rule)
    (rule : Rule) : motive rule := by
  refine @Rule.rec motive (fun captures => ∀ c ∈ captures, ∀ r ∈ c.2.patterns, motive r)
    (fun patterns => ∀ r ∈ patterns, motive r) (fun c => ∀ r ∈ c.2.patterns, motive r)
    (fun entry => ∀ r ∈ entry.patterns, motive r) ?_ ?_ ?_ ?_ ?_ ?_ ?_ ?_ ?_ ?_ rule
  · intro name regex captures patterns entries listed
    exact step _ listed (List.forall_mem_singleton.2 entries)
  · intro name contentName opening closing _ _ patterns closingLast opened closed listed
    exact step _ listed (List.forall_mem_cons.2 ⟨opened, List.forall_mem_singleton.2 closed⟩)
  · intro target
    exact step _ nofun nofun
  · intro patterns listed
    exact step _ listed nofun
  · exact nofun
  · intro c rest head tail
    exact List.forall_mem_cons.2 ⟨head, tail⟩
  · exact nofun
  · intro r rest head tail
    exact List.forall_mem_cons.2 ⟨head, tail⟩
  · intro group entry inside
    exact inside
  · intro name patterns inside
    exact inside

namespace Json

/-- The fields of a value. -/
abbrev Fields := List (String × Json)

def text? : Json → Option String
  | string text => some text
  | _ => none

def number? : Json → Option Nat
  | number n => some n
  | _ => none

def texts? : Json → Option (List String)
  | list items => items.mapM text?
  | _ => none

/-- A field that must be there. -/
def required {α : Type} (read : Json → Option α) (name : String) (fields : Fields) : Option α :=
  (fields.lookup name).bind read

/-- A field that may be absent. -/
def optional {α : Type} (read : Json → Option α) (name : String) (fields : Fields) :
    Option (Option α) :=
  match fields.lookup name with
  | none => some none
  | some value => (read value).map some

/-- A name that is a number. -/
def group? (name : String) : Option Nat :=
  (read? name.toList).bind number?

def has (name : String) (fields : Fields) : Bool :=
  (fields.lookup name).isSome

mutual

/-- The rule of a value. -/
def rule? : Json → Option Rule
  | .object fields =>
    if has "match" fields then do
      let name ← optional text? "name" fields
      let regex ← required text? "match" fields
      let captures ← capturesAt? "captures" fields
      let patterns ← rulesAt? "patterns" fields
      return .single name regex captures patterns
    else if has "begin" fields then do
      let name ← optional text? "name" fields
      let contentName ← optional text? "contentName" fields
      let opening ← required text? "begin" fields
      let closing ← required text? "end" fields
      let openingCaptures ← capturesAt? "beginCaptures" fields
      let closingCaptures ← capturesAt? "endCaptures" fields
      let patterns ← rulesAt? "patterns" fields
      let closingLast ← optional number? "applyEndPatternLast" fields
      return .span name contentName opening closing openingCaptures closingCaptures patterns closingLast
    else if has "include" fields then do
      let target ← required text? "include" fields
      return .includes target
    else if has "patterns" fields then do
      let patterns ← rulesAt? "patterns" fields
      return .list patterns
    else none
  | _ => none
termination_by structural value => value

/-- The rules of a list. -/
def rules? : Json → Option (List Rule)
  | .list items => rulesEach? items
  | _ => none
termination_by structural value => value

def rulesEach? : List Json → Option (List Rule)
  | [] => some []
  | item :: items => do
    let rule ← rule? item
    return rule :: (← rulesEach? items)
termination_by structural items => items

/-- The rules in the field `name`, which may be absent. -/
def rulesAt? (name : String) : Fields → Option (List Rule)
  | [] => some []
  | (key, value) :: fields => if name = key then rules? value else rulesAt? name fields
termination_by structural fields => fields

/-- The entry of a group. -/
def captureRule? : Json → Option (CaptureRule Rule)
  | .object fields => do
    let name ← optional text? "name" fields
    let patterns ← rulesAt? "patterns" fields
    return ⟨name, patterns⟩
  | _ => none
termination_by structural value => value

/-- The captures of a value. -/
def captures? : Json → Option RuleCaptures
  | .object fields => capturesEach? fields
  | _ => none
termination_by structural value => value

def capturesEach? : Fields → Option RuleCaptures
  | [] => some []
  | (key, value) :: fields => do
    let group ← group? key
    let entry ← captureRule? value
    return (group, entry) :: (← capturesEach? fields)
termination_by structural fields => fields

/-- The captures in the field `name`, which may be absent. -/
def capturesAt? (name : String) : Fields → Option RuleCaptures
  | [] => some []
  | (key, value) :: fields => if name = key then captures? value else capturesAt? name fields
termination_by structural fields => fields

end

/-- The rules of a repository, under their names. -/
def repository? : Json → Option (List (String × Rule))
  | object fields => fields.mapM fun e => (rule? e.2).map fun rule => (e.1, rule)
  | _ => none

/-- The grammar of a value. -/
def file? : Json → Option GrammarFile
  | object fields => do
    let name ← required text? "name" fields
    let scopeName ← required text? "scopeName" fields
    let fileTypes ← required texts? "fileTypes" fields
    let patterns ← required rules? "patterns" fields
    let repository ← required repository? "repository" fields
    return { name, scopeName, fileTypes, patterns, repository }
  | _ => none

/-- A list that is left out if it is empty. -/
def unlessEmpty {α : Type} (write : List α → Json) : List α → Option Json
  | [] => none
  | a :: as => some (write (a :: as))

/-- Fields in their order, without those that are left out. -/
def record (es : List (String × Option Json)) : Fields :=
  es.flatMap fun e => field? e.1 e.2

/-- The fields of a rule with the names that they have if they are not left out. -/
def fieldsOf : Rule → List (String × Option Json)
  | .single name regex captures patterns =>
    [("name", name.map string), ("match", some (string regex)),
      ("captures", unlessEmpty object (capturesToJson captures)),
      ("patterns", unlessEmpty list (rulesToJson patterns))]
  | .span name contentName opening closing openingCaptures closingCaptures patterns closingLast =>
    [("name", name.map string), ("contentName", contentName.map string),
      ("begin", some (string opening)), ("end", some (string closing)),
      ("beginCaptures", unlessEmpty object (capturesToJson openingCaptures)),
      ("endCaptures", unlessEmpty object (capturesToJson closingCaptures)),
      ("patterns", unlessEmpty list (rulesToJson patterns)),
      ("applyEndPatternLast", closingLast.map number)]
  | .includes target => [("include", some (string target))]
  | .list patterns => [("patterns", some (list (rulesToJson patterns)))]

/-- The fields of an entry of a group. -/
def fieldsOfEntry (entry : CaptureRule Rule) : List (String × Option Json) :=
  [("name", entry.name.map string), ("patterns", unlessEmpty list (rulesToJson entry.patterns))]

section Written

theorem capturesField_eq (field : RegexField) (captures : Fields) :
    capturesField field captures = field? field.capturesLabel (unlessEmpty object captures) := by
  cases captures <;> rfl

theorem patternsField_eq (patterns : List Json) :
    patternsField patterns = field? "patterns" (unlessEmpty list patterns) := by
  cases patterns <;> rfl

theorem lookup_field? (name key : String) (value : Option Json) :
    (field? key value).lookup name = if name = key then value else none := by
  cases value with
  | none =>
    rw [ite_self]
    rfl
  | some value => exact NameMap.lookup_cons_if ..

/-- A name finds its own field, if that is not left out. -/
theorem lookup_record {es : List (String × Option Json)} (distinct : (es.map Prod.fst).Nodup)
    (name : String) : (record es).lookup name = (es.lookup name).join := by
  induction es with
  | nil => rfl
  | cons e es ih =>
    obtain ⟨new, distinct⟩ := List.nodup_cons.1 distinct
    have split : record (e :: es) = field? e.1 e.2 ++ record es := rfl
    rw [split, List.lookup_append, lookup_field?, ih distinct, NameMap.lookup_cons_if]
    by_cases same : name = e.1
    · have later : es.lookup name = none := by
        cases found : es.lookup name with
        | none => rfl
        | some value =>
          have mem := List.mem_map_of_mem (f := Prod.fst) (NameMap.mem_of_lookup found)
          exact absurd (same ▸ mem) new
      rw [if_pos same, if_pos same, later]
      exact Option.or_none
    · rw [if_neg same, if_neg same]
      exact Option.none_or

theorem toJson_eq (rule : Rule) : rule.toJson = object (record (fieldsOf rule)) := by
  cases rule with
  | single name regex captures patterns =>
    simp [Rule.toJson, fieldsOf, record, capturesField_eq, patternsField_eq, nameField,
      RegexField.capturesLabel, field?]
  | span name contentName opening closing openingCaptures closingCaptures patterns closingLast =>
    simp [Rule.toJson, fieldsOf, record, capturesField_eq, patternsField_eq, nameField,
      RegexField.capturesLabel, field?]
  | includes target => rfl
  | list patterns => rfl

theorem lookup_fieldsOf (rule : Rule) (name : String) :
    (record (fieldsOf rule)).lookup name = ((fieldsOf rule).lookup name).join := by
  apply lookup_record
  cases rule <;> simp [fieldsOf]

section Lookup

variable {name : String} {fields : Fields}

theorem rulesAt?_eq (name : String) (fields : Fields) :
    rulesAt? name fields = ((fields.lookup name).map rules?).getD (some []) := by
  induction fields with
  | nil => rfl
  | cons e fields ih =>
    rw [rulesAt?, NameMap.lookup_cons_if, ih]
    split <;> rfl

theorem capturesAt?_eq (name : String) (fields : Fields) :
    capturesAt? name fields = ((fields.lookup name).map captures?).getD (some []) := by
  induction fields with
  | nil => rfl
  | cons e fields ih =>
    rw [capturesAt?, NameMap.lookup_cons_if, ih]
    split <;> rfl

theorem optional_of_lookup {α : Type} (read : Json → Option α) (write : α → Json)
    (inverse : ∀ a, read (write a) = some a) {value : Option α}
    (h : fields.lookup name = value.map write) : optional read name fields = some value := by
  rw [optional, h]
  cases value with
  | none => rfl
  | some a => exact congrArg (Option.map some) (inverse a)

theorem name_of_lookup {value : Option String} (h : fields.lookup name = value.map string) :
    optional text? name fields = some value :=
  optional_of_lookup text? string (fun _ => rfl) h

theorem text_of_lookup {text : String} (h : fields.lookup name = some (string text)) :
    required text? name fields = some text := by
  rw [required, h]
  rfl

end Lookup

/-- The value of a rule is decoded to the rule. -/
def IsDecoded (rule : Rule) : Prop :=
  rule? rule.toJson = some rule

theorem rulesEach?_rulesToJson {rules : List Rule} (h : ∀ r ∈ rules, IsDecoded r) :
    rulesEach? (rulesToJson rules) = some rules := by
  induction rules with
  | nil => rfl
  | cons rule rules ih =>
    obtain ⟨head, tail⟩ := List.forall_mem_cons.1 h
    rw [rulesToJson, rulesEach?, head, ih tail]
    rfl

theorem rules_of_lookup {rules : List Rule} {name : String} {fields : Fields}
    (h : ∀ r ∈ rules, IsDecoded r)
    (found : fields.lookup name = unlessEmpty list (rulesToJson rules)) :
    rulesAt? name fields = some rules := by
  rw [rulesAt?_eq, found, ← rulesEach?_rulesToJson h]
  cases rulesToJson rules <;> rfl

theorem captureRule?_toJson {entry : CaptureRule Rule} (h : ∀ r ∈ entry.patterns, IsDecoded r) :
    captureRule? (.object (nameField "name" entry.name ++ patternsField (rulesToJson entry.patterns))) =
      some entry := by
  have written : nameField "name" entry.name ++ patternsField (rulesToJson entry.patterns) =
      record (fieldsOfEntry entry) := by
    simp [fieldsOfEntry, record, patternsField_eq, nameField]
  have found := @lookup_record (fieldsOfEntry entry) (by simp [fieldsOfEntry])
  have named : optional text? "name" (record (fieldsOfEntry entry)) = some entry.name :=
    name_of_lookup (found "name")
  rw [written, captureRule?, named, rules_of_lookup h (found "patterns")]
  rfl

theorem group?_repr (n : Nat) : group? n.repr = some n := by
  have text : IsText (.number n) n.repr.toList := (SpelledBy.number (spellsNumber_repr n)).isTextBy
  rw [group?, read?_of_isText text]
  rfl

theorem capturesEach?_capturesToJson {captures : RuleCaptures}
    (h : ∀ c ∈ captures, ∀ r ∈ c.2.patterns, IsDecoded r) :
    capturesEach? (capturesToJson captures) = some captures := by
  induction captures with
  | nil => rfl
  | cons c captures ih =>
    obtain ⟨head, tail⟩ := List.forall_mem_cons.1 h
    obtain ⟨group, entry⟩ := c
    rw [capturesToJson, capturesEach?, group?_repr, captureRule?_toJson head, ih tail]
    rfl

theorem captures_of_lookup {captures : RuleCaptures} {name : String} {fields : Fields}
    (h : ∀ c ∈ captures, ∀ r ∈ c.2.patterns, IsDecoded r)
    (found : fields.lookup name = unlessEmpty object (capturesToJson captures)) :
    capturesAt? name fields = some captures := by
  rw [capturesAt?_eq, found, ← capturesEach?_capturesToJson h]
  cases capturesToJson captures <;> rfl

/-- Every rule is decoded from its own value. -/
theorem isDecoded (rule : Rule) : IsDecoded rule := by
  induction rule using Rule.ind with
  | step rule listed captured =>
    have found := lookup_fieldsOf rule
    rw [IsDecoded, toJson_eq, rule?]
    cases rule with
    | single name regex captures patterns =>
      have kind : has "match" (record (fieldsOf (.single name regex captures patterns))) = true := by
        rw [has, found]
        rfl
      rw [if_pos kind, name_of_lookup (found "name"), text_of_lookup (found "match"),
        captures_of_lookup (captured _ List.mem_cons_self) (found "captures"),
        rules_of_lookup listed (found "patterns")]
      rfl
    | span name contentName opening closing openingCaptures closingCaptures patterns closingLast =>
      have other : ¬ has "match" (record (fieldsOf (.span name contentName opening closing
          openingCaptures closingCaptures patterns closingLast))) = true := by
        rw [has, found]
        exact Bool.false_ne_true
      have kind : has "begin" (record (fieldsOf (.span name contentName opening closing
          openingCaptures closingCaptures patterns closingLast))) = true := by
        rw [has, found]
        rfl
      rw [if_neg other, if_pos kind, name_of_lookup (found "name"),
        name_of_lookup (found "contentName"), text_of_lookup (found "begin"),
        text_of_lookup (found "end"),
        captures_of_lookup (captured _ List.mem_cons_self) (found "beginCaptures"),
        captures_of_lookup (captured _ (List.mem_cons_of_mem _ List.mem_cons_self))
          (found "endCaptures"),
        rules_of_lookup listed (found "patterns"),
        optional_of_lookup number? number (fun _ => rfl) (found "applyEndPatternLast")]
      rfl
    | includes target => rfl
    | list patterns =>
      have inside : rulesAt? "patterns" (record (fieldsOf (.list patterns))) = some patterns := by
        rw [rulesAt?_eq, found]
        exact rulesEach?_rulesToJson listed
      show (rulesAt? "patterns" (record (fieldsOf (.list patterns))) >>= fun patterns =>
        some (Rule.list patterns)) = _
      rw [inside]
      rfl

theorem mapM_eq_some {α β : Type} (read : β → Option α) (write : α → β)
    (inverse : ∀ a, read (write a) = some a) (as : List α) : (as.map write).mapM read = some as := by
  induction as with
  | nil => rfl
  | cons a as ih =>
    rw [List.map_cons, List.mapM_cons, inverse, ih]
    rfl

theorem file?_of_fields {name scopeName : String} {fileTypes patterns repository : Json}
    {extensions : List String} {rules : List Rule} {entries : List (String × Rule)}
    (texts : texts? fileTypes = some extensions) (listed : rules? patterns = some rules)
    (named : repository? repository = some entries) :
    file? (.object [("name", string name), ("scopeName", string scopeName), ("fileTypes", fileTypes),
      ("patterns", patterns), ("repository", repository)]) =
      some ⟨name, scopeName, extensions, rules, entries⟩ := by
  show (texts? fileTypes >>= fun extensions => rules? patterns >>= fun rules =>
    repository? repository >>= fun entries =>
      some (GrammarFile.mk name scopeName extensions rules entries)) = _
  rw [texts, listed, named]
  rfl

/-- Every finished grammar is decoded from its own value. -/
theorem file?_toJson (g : GrammarFile) : file? g.toJson = some g := by
  apply file?_of_fields
  · exact mapM_eq_some text? string (fun _ => rfl) g.fileTypes
  · exact rulesEach?_rulesToJson fun r _ => isDecoded r
  · apply mapM_eq_some
    intro e
    rw [isDecoded e.2]
    rfl

end Written

end Json

namespace GrammarFile

/-- The grammar of a text. -/
def ofText? (text : String) : Option GrammarFile :=
  (Json.read? text.toList).bind Json.file?

/-- What the texts of a finished grammar keep. -/
structure LosesNothing (w : Json.Writer) (g : GrammarFile) : Prop where
  /-- There is no text only if the writer fails, and what it says is reported. -/
  failed : ∀ pretty e, g.text w pretty = .error e ↔
    ∃ message, w.write pretty g.toJson = .error message ∧ e = .plain (.serialization message)
  /-- So there is one if the writer fails on no value. -/
  returned : w.IsTotal → ∀ pretty, ∃ text, g.text w pretty = .ok text
  /-- A text is JSON, and the grammar can be read from it. -/
  recovered : ∀ pretty text, g.text w pretty = .ok text →
    Json.IsText g.toJson text.toList ∧ ofText? text = some g
  /-- It is the text of no other grammar, in no layout. -/
  distinct : ∀ other : GrammarFile, other ≠ g → ∀ pretty pretty' text,
    g.text w pretty = .ok text → other.text w pretty' ≠ .ok text
  /-- The text that is laid out has the other one between its white space. -/
  stripped : ∀ short long, g.text w false = .ok short → g.text w true = .ok long →
    String.ofList (Json.withoutBlanks .outside long.toList) = short

variable {w : Json.Writer} {escape : Char → List Char}

theorem ofText?_text (h : w.Follows escape) {g : GrammarFile} {pretty : Bool} {text : String}
    (written : g.text w pretty = .ok text) : ofText? text = some g := by
  rw [ofText?, Json.read?_of_isText (h.isText (text_eq_ok_iff.1 written))]
  exact Json.file?_toJson g

/-- A text that a writer makes of a finished grammar is JSON, and all of the grammar can be read from it. -/
theorem text_losesNothing (h : w.Follows escape) (g : GrammarFile) : g.LosesNothing w where
  failed _ _ := text_eq_error_iff
  returned total pretty := by
    obtain ⟨text, written⟩ := total pretty g.toJson
    exact ⟨text, text_eq_ok_iff.2 written⟩
  recovered pretty text written := ⟨h.isText (text_eq_ok_iff.1 written), ofText?_text h written⟩
  distinct other ne pretty pretty' text written same := by
    have found := ofText?_text h same
    rw [ofText?_text h written] at found
    exact ne (Option.some.inj found).symm
  stripped short long compact laidOut := by
    rw [h.withoutBlanks_eq (text_eq_ok_iff.1 laidOut) (text_eq_ok_iff.1 compact), String.ofList_toList]

/-- All four kinds of rules, captures with rules of their own, and characters that are escaped. -/
def nestedFile : GrammarFile where
  name := "To\"y"
  scopeName := "source.toy"
  fileTypes := ["toy"]
  patterns := [.span none (some "in.toy") "\\(" "\n" [(1, ⟨some "open.toy", []⟩), (12, ⟨none, []⟩)] []
    [.single none "\t\x01" [(0, ⟨none, [.includes "$self"]⟩)] []] (some 1)]
  repository := [("rest", .list [])]

theorem text_losesNothing_nested :
    Json.indenting.Follows Json.writeChar ∧ nestedFile.LosesNothing Json.indenting ∧
      ∃ short long, nestedFile.text Json.indenting false = .ok short ∧
        nestedFile.text Json.indenting true = .ok long ∧
        ofText? short = some nestedFile ∧ ofText? long = some nestedFile ∧
        String.ofList (Json.withoutBlanks .outside long.toList) = short := by
  have kept := text_losesNothing Json.indenting_follows nestedFile
  obtain ⟨short, compact⟩ := kept.returned Json.indenting_isTotal false
  obtain ⟨long, laidOut⟩ := kept.returned Json.indenting_isTotal true
  exact ⟨Json.indenting_follows, kept, short, long, compact, laidOut,
    (kept.recovered false short compact).2, (kept.recovered true long laidOut).2,
    kept.stripped short long compact laidOut⟩

end GrammarFile

end TextMate
