import TextMate.Grammar
import TextMate.Pattern.Serial
import TextMate.Proofs.RenamedGrammar

/-!
# How an author builds grammars

A history is a list of calls: patterns and modes are built from what was built before, and grammars
are begun and filled. Every result has a handle of its own, so that a pattern which is used twice is
one pattern. Modes have no identity: who writes the same mode twice uses one handle twice. Captures
and highlights take their serial numbers from one counter of 32 bits, which starts anywhere and goes
round.

For the proofs the numbers may also be given in advance, one for each handle (`runWith`). With
the handles for numbers this is a history without a counter.
-/

set_option autoImplicit false

namespace TextMate

/-- What the author calls a pattern, a mode or a grammar. -/
abbrev Handle := Nat

/-- A new pattern, made of earlier ones. -/
inductive PatternCall where
  | leaf (text : String)
  | sequence (first second : Handle)
  | alternation (first second : Handle)
  | repetition (element : Handle) (min : Nat) (max : Option Nat)
  | capture (element : Handle) (name : String)
  | look (kind : Look) (element : Handle)
  | tag (element : Handle) (scopes : List Scope)
  deriving DecidableEq

/-- A new mode, made of patterns and of earlier modes. -/
inductive ModeCall where
  | single (pattern : Handle) (scope : Option Scope)
      (captures : List (String × Declaration Handle)) (contains : List Handle)
  | span (opening closing : Handle) (scope contentScope : Option Scope)
      (openingCaptures closingCaptures : List (String × Declaration Handle))
      (contains : List Handle) (closingLast : Bool)
  | group (modes : List Handle)
  | includes (target : Reference)

/-- An entry of the repository, made of modes. -/
inductive EntryCall where
  | one (mode : Handle)
  | several (modes : List Handle)

/-- A call. The first handle is that of the new pattern, the new mode or the grammar at hand. -/
inductive Call where
  | pattern (x : Handle) (call : PatternCall)
  | mode (x : Handle) (call : ModeCall)
  | grammar (x : Handle) (name : String)
  | scopeName (x : Handle) (name : String)
  | fileTypes (x : Handle) (extensions : List String)
  | patterns (x : Handle) (modes : List Handle)
  | rule (x : Handle) (name : String) (entry : EntryCall)

namespace PatternCall

/-- The patterns that are used. -/
def uses : PatternCall → List Handle
  | leaf _ => []
  | sequence p q | alternation p q => [p, q]
  | repetition p _ _ | capture p _ | look _ p | tag p _ => [p]

/-- Only captures and highlights have a serial number. -/
def takesSerial : PatternCall → Bool
  | capture _ _ | tag _ _ => true
  | _ => false

/-- Builds the pattern. -/
def build (patterns : Handle → Pattern) : PatternCall → Numbered Pattern
  | leaf text => return .leaf text
  | sequence p q => return .sequence (patterns p) (patterns q)
  | alternation p q => return .alternation (patterns p) (patterns q)
  | repetition p min max => return .repetition (patterns p) min max
  | capture p name => (patterns p).named name
  | look kind p => return .look kind (patterns p)
  | tag p scopes => (patterns p).tags scopes

/-- The pattern, if the next serial number is `n`. -/
def value (patterns : Handle → Pattern) (n : Nat) (call : PatternCall) : Pattern :=
  ((call.build patterns).run n).1

end PatternCall

namespace ModeCall

/-- The patterns that are used. -/
def patterns : ModeCall → List Handle
  | single p _ _ _ => [p]
  | span p q _ _ _ _ _ _ => [p, q]
  | group _ | includes _ => []

/-- The modes that are used. -/
def modes : ModeCall → List Handle
  | single _ _ captures contains => captures.flatMap (fun e => e.2.patterns) ++ contains
  | span _ _ _ _ openingCaptures closingCaptures contains _ =>
    openingCaptures.flatMap (fun e => e.2.patterns) ++
      (closingCaptures.flatMap (fun e => e.2.patterns) ++ contains)
  | group modes => modes
  | includes _ => []

/-- The mode. -/
def value (patterns : Handle → Pattern) (modes : Handle → Mode) : ModeCall → Mode
  | single p scope captures contains =>
    .single (patterns p) scope (captures.map fun e => (e.1, e.2.map modes)) (contains.map modes)
  | span p q scope contentScope openingCaptures closingCaptures contains closingLast =>
    .span (patterns p) (patterns q) scope contentScope
      (openingCaptures.map fun e => (e.1, e.2.map modes))
      (closingCaptures.map fun e => (e.1, e.2.map modes)) (contains.map modes) closingLast
  | group ms => .group (ms.map modes)
  | includes target => .includes target

end ModeCall

namespace EntryCall

/-- The modes that are used. -/
def modes : EntryCall → List Handle
  | one mode => [mode]
  | several modes => modes

/-- The entry. -/
def value (modes : Handle → Mode) : EntryCall → Entry
  | one mode => .one (modes mode)
  | several ms => .several (ms.map modes)

end EntryCall

/-- Everything that has been built so far. -/
structure Desk where
  patterns : Handle → Option Pattern
  modes : Handle → Option Mode
  grammars : Handle → Option Grammar

namespace Desk

def empty : Desk :=
  ⟨fun _ => none, fun _ => none, fun _ => none⟩

/-- The pattern with the handle `x`, if there is one. -/
def pattern (d : Desk) (x : Handle) : Pattern :=
  (d.patterns x).getD default

/-- The mode with the handle `x`, if there is one. -/
def mode (d : Desk) (x : Handle) : Mode :=
  (d.modes x).getD default

/-- The patterns have been built. -/
def HasPatterns (d : Desk) (xs : List Handle) : Prop :=
  ∀ x ∈ xs, (d.patterns x).isSome

/-- The modes have been built. -/
def HasModes (d : Desk) (xs : List Handle) : Prop :=
  ∀ x ∈ xs, (d.modes x).isSome

instance (d : Desk) (xs : List Handle) : Decidable (d.HasPatterns xs) :=
  inferInstanceAs (Decidable (∀ x ∈ xs, (d.patterns x).isSome))

instance (d : Desk) (xs : List Handle) : Decidable (d.HasModes xs) :=
  inferInstanceAs (Decidable (∀ x ∈ xs, (d.modes x).isSome))

/-- Gives `a` the handle `x`. -/
def assign {α : Type} (m : Handle → Option α) (x : Handle) (a : α) : Handle → Option α :=
  fun y => if y = x then some a else m y

/-- Changes the grammar `x`, if there is one. -/
def change (d : Desk) (x : Handle) (f : Grammar → Grammar) : Option Desk :=
  (d.grammars x).map fun g => { d with grammars := assign d.grammars x (f g) }

/-- One call, with the next serial number. A handle is given once, and what is used must be there. -/
def step (d : Desk) (n : Nat) : Call → Option (Desk × Nat)
  | .pattern x call =>
    if (d.patterns x).isNone ∧ d.HasPatterns call.uses then
      let built := (call.build d.pattern).run n
      some ({ d with patterns := assign d.patterns x built.1 }, built.2)
    else none
  | .mode x call =>
    if (d.modes x).isNone ∧ d.HasPatterns call.patterns ∧ d.HasModes call.modes then
      some ({ d with modes := assign d.modes x (call.value d.pattern d.mode) }, n)
    else none
  | .grammar x name =>
    if (d.grammars x).isNone then
      some ({ d with grammars := assign d.grammars x (.new name) }, n)
    else none
  | .scopeName x name => (d.change x fun g => g.withScopeName name).map fun d => (d, n)
  | .fileTypes x extensions => (d.change x fun g => g.withFileTypes extensions).map fun d => (d, n)
  | .patterns x modes =>
    if d.HasModes modes then
      (d.change x fun g => g.withPatterns (modes.map d.mode)).map fun d => (d, n)
    else none
  | .rule x name entry =>
    if d.HasModes entry.modes then
      (d.change x fun g => g.withRule name (entry.value d.mode)).map fun d => (d, n)
    else none

end Desk

/-- What is built by a history, if no call fails. -/
def run (next : UInt32) (d : Desk) : List Call → Option Desk
  | [] => some d
  | call :: calls =>
    (d.step next.toNat call).bind fun r => run (.ofNat r.2) r.1 calls

/-- What a call is about: what it builds, or the grammar that it changes. -/
def Call.handle : Call → Handle
  | .pattern x _ | .mode x _ | .grammar x _ | .scopeName x _ | .fileTypes x _ | .patterns x _
  | .rule x _ _ => x

/-- The call builds a capture or a highlight. -/
def Call.takesSerial : Call → Bool
  | .pattern _ call => call.takesSerial
  | _ => false

/-- The handles of the captures and the highlights of a history. -/
def numbered (calls : List Call) : List Handle :=
  (calls.filter Call.takesSerial).map Call.handle

/-- One call without a counter: the serial number comes with the handle. -/
def Desk.stepWith (number : Handle → Nat) (d : Desk) (call : Call) : Option Desk :=
  (d.step (number call.handle) call).map Prod.fst

/-- A history where the serial numbers are given. -/
def runWith (number : Handle → Nat) (d : Desk) (calls : List Call) : Option Desk :=
  calls.foldlM (Desk.stepWith number) d

end TextMate
