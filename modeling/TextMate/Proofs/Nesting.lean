import TextMate.Pattern.Blocks
import TextMate.Proofs.NameTable
import TextMate.Proofs.Scanned

/-!
# Rows and choices

A sequence of sequences is one row of parts, and a choice between choices is one list of alternatives.
How the parts were put together leaves no trace: a pattern compiles like all its parts put together from
the left (`Joint.compile_all_parts`). So patterns with the same parts have the same regex, whatever the
nesting, and the same numbers, names and tags are collected for them on the way.
-/

set_option autoImplicit false

namespace TextMate

namespace Fragment

variable (f g h : Fragment)

/-- A fragment that is no alternation needs no guard in a row. -/
theorem guarded_of_ne {f : Fragment} (tight : f.precedence ≠ .alternation) :
    f.guarded .sequence = f := by
  refine if_neg fun loose => tight ?_
  revert loose
  cases f.precedence <;> decide

/-- Which sides are empty decides about the precedence, and that does not depend on which two of three
texts are put together first. -/
theorem adjoined_assoc : (f.adjoined g).adjoined h = f.adjoined (g.adjoined h) := by
  have text : ((f.adjoined g).adjoined h).text = (f.adjoined (g.adjoined h)).text := by
    simp [adjoined, joined, String.append_assoc]
  have precedence : ((f.adjoined g).adjoined h).precedence = (f.adjoined (g.adjoined h)).precedence := by
    simp only [adjoined, joined, String.append_empty, String.append_eq_empty_iff]
    by_cases hf : f.text = "" <;> by_cases hg : g.text = "" <;> by_cases hh : h.text = "" <;>
      simp [hf, hg, hh]
  rw [Fragment.mk.injEq]
  refine ⟨text, precedence, ?_, ?_, ?_⟩ <;> exact List.append_assoc ..

/-- Two fragments in a row are no alternation. -/
theorem precedence_beside_ne : (f.beside g).precedence ≠ .alternation := by
  have left := Scanned.precedence_guarded_ne f
  have right := Scanned.precedence_guarded_ne g
  simp only [beside, adjoined, joined]
  split
  · exact right
  · split
    · exact left
    · decide

/-- The parts of a row are guarded, but not the row of some of them. -/
theorem beside_assoc : (f.beside g).beside h = f.beside (g.beside h) := by
  have left : (f.beside g).guarded .sequence = f.beside g := guarded_of_ne (precedence_beside_ne f g)
  have right : (g.beside h).guarded .sequence = g.beside h := guarded_of_ne (precedence_beside_ne g h)
  calc (f.beside g).beside h
      = (f.beside g).adjoined (h.guarded .sequence) := by rw [beside, left]
    _ = (f.guarded .sequence).adjoined (g.beside h) := adjoined_assoc ..
    _ = f.beside (g.beside h) := congrArg (f.guarded .sequence).adjoined right.symm

theorem either_assoc : (f.either g).either h = f.either (g.either h) := by
  simp [either, joined, String.append_assoc]

end Fragment

/-- Puts two compiled parts together. The fault of the first one comes first. -/
def together (put : Fragment → Fragment → Fragment) (x y : Except Fault Fragment) :
    Except Fault Fragment :=
  return put (← x) (← y)

instance (put : Fragment → Fragment → Fragment) [Std.Associative put] :
    Std.Associative (together put) where
  assoc x y z := by
    cases x with
    | error fault => rfl
    | ok f =>
      cases y with
      | error fault => rfl
      | ok g =>
        cases z with
        | error fault => rfl
        | ok h => exact congrArg Except.ok (Std.Associative.assoc f g h)

/-- The two ways to put patterns together. -/
inductive Joint where
  | row
  | choice

namespace Joint

open Pattern (sequence alternation inOrder anyOf)

def node : Joint → Pattern → Pattern → Pattern
  | row => sequence
  | choice => alternation

/-- A whole list of patterns put together. -/
def all : Joint → List Pattern → Pattern
  | row => inOrder
  | choice => anyOf

/-- What becomes of two fragments. -/
def put : Joint → Fragment → Fragment → Fragment
  | row => .beside
  | choice => .either

/-- The patterns that are put together, also those of the nodes below. -/
def parts : Joint → Pattern → List Pattern
  | row, .sequence p q => row.parts p ++ row.parts q
  | choice, .alternation p q => choice.parts p ++ choice.parts q
  | _, p => [p]

variable {j : Joint} {p q : Pattern} {ps qs : List Pattern}

instance : Std.Associative j.put where
  assoc f g h := by
    cases j with
    | row => exact Fragment.beside_assoc f g h
    | choice => exact Fragment.either_assoc f g h

theorem compile_node (p q : Pattern) :
    (j.node p q).compile = together j.put p.compile q.compile := by
  cases j <;> rfl

theorem all_cons (p : Pattern) (ps : List Pattern) : j.all (p :: ps) = ps.foldl j.node p := by
  cases j <;> rfl

theorem compile_all_cons (p : Pattern) (ps : List Pattern) :
    (j.all (p :: ps)).compile = (ps.map Pattern.compile).foldl (together j.put) p.compile := by
  rw [all_cons, List.foldl_map]
  exact (List.foldl_hom Pattern.compile fun p q => (j.compile_node p q).symm).symm

/-- Two lists put together one after the other. -/
theorem compile_all_append (hp : ps ≠ []) (hq : qs ≠ []) :
    (j.all (ps ++ qs)).compile = (j.node (j.all ps) (j.all qs)).compile := by
  obtain ⟨p, ps, rfl⟩ := List.exists_cons_of_ne_nil hp
  obtain ⟨q, qs, rfl⟩ := List.exists_cons_of_ne_nil hq
  rw [List.cons_append, compile_node, compile_all_cons, compile_all_cons, compile_all_cons,
    List.map_append, List.foldl_append, List.map_cons, List.foldl_cons]
  exact List.foldl_assoc

theorem parts_node (p q : Pattern) : j.parts (j.node p q) = j.parts p ++ j.parts q := by
  cases j <;> rfl

/-- A pattern is put together from other ones, or it is a single part. -/
theorem ind {motive : Pattern → Prop} (node : ∀ p q, motive p → motive q → motive (j.node p q))
    (single : ∀ p, j.parts p = [p] → motive p) (p : Pattern) : motive p := by
  induction p with
  | sequence p q ihp ihq =>
    cases j with
    | row => exact node p q ihp ihq
    | choice => exact single _ rfl
  | alternation p q ihp ihq =>
    cases j with
    | row => exact single _ rfl
    | choice => exact node p q ihp ihq
  | _ => exact single _ (by cases j <;> rfl)

theorem parts_ne_nil (p : Pattern) : j.parts p ≠ [] := by
  induction p using ind (j := j) with
  | node p q hp _ => simp [parts_node, hp]
  | single p single => simp [single]

/-- A pattern compiles like all its parts put together. -/
theorem compile_all_parts (p : Pattern) : (j.all (j.parts p)).compile = p.compile := by
  induction p using ind (j := j) with
  | node p q hp hq =>
    rw [parts_node, compile_all_append (parts_ne_nil p) (parts_ne_nil q), compile_node, hp, hq, compile_node]
  | single p single =>
    rw [single, all_cons]
    rfl

/-- What is collected for a pattern is what is collected for its parts. -/
theorem flatMap_parts {α : Type} {found : Pattern → List α}
    (both : ∀ p q, found (j.node p q) = found p ++ found q) (p : Pattern) :
    (j.parts p).flatMap found = found p := by
  induction p using ind (j := j) with
  | node p q hp hq => rw [parts_node, List.flatMap_append, hp, hq, both]
  | single p single => rw [single, List.flatMap_singleton]

end Joint

namespace Pattern

/-- Two patterns have the same regex, and what is collected for it node by node is the same too. -/
structure SameRegex (p q : Pattern) : Prop where
  /-- The same fault, or the same text, precedence, groups, names and tags. -/
  compile : p.compile = q.compile
  /-- There are as many groups, and each capture has the same numbers. -/
  groups : p.groupTable = q.groupTable
  /-- The tables of the tags are the same, with the scopes of each capture in the same order. -/
  tags : p.collected = q.collected
  /-- The same capture is the last one of each name. -/
  last : p.nameTable.last = q.nameTable.last
  /-- The same names are flagged because they were taken over. -/
  flagged : ∀ name, name ∈ p.nameTable.flagged ↔ name ∈ q.nameTable.flagged

variable {p q : Pattern}

theorem sameRegex_of_eq (compile : p.compile = q.compile) (slots : p.slots = q.slots)
    (tags : p.highlights = q.highlights) (names : p.namedCaptures = q.namedCaptures) :
    SameRegex p q := by
  have records := q.records_nameTable
  rw [← names] at records
  obtain ⟨last, flagged⟩ := p.records_nameTable.eq records
  refine ⟨compile, ?_, ?_, last, flagged⟩
  · rw [groupTable_eq, groupTable_eq, slots]
  · rw [collected_eq, collected_eq, tags]

/-- The parts of a pattern determine the regex. -/
theorem sameRegex_of_parts {j : Joint} (h : j.parts p = j.parts q) : SameRegex p q := by
  have slots (p q : Pattern) : (j.node p q).slots = p.slots ++ q.slots := by
    cases j <;> rfl
  have tags (p q : Pattern) : (j.node p q).highlights = p.highlights ++ q.highlights := by
    cases j <;> rfl
  have names (p q : Pattern) : (j.node p q).namedCaptures = p.namedCaptures ++ q.namedCaptures := by
    cases j <;> rfl
  refine sameRegex_of_eq ?_ ?_ ?_ ?_
  · rw [← j.compile_all_parts p, h, j.compile_all_parts]
  · rw [← j.flatMap_parts slots p, h, j.flatMap_parts slots]
  · rw [← j.flatMap_parts tags p, h, j.flatMap_parts tags]
  · rw [← j.flatMap_parts names p, h, j.flatMap_parts names]

/-- Sequences and alternations may be nested in any way. -/
theorem sameRegex_regrouped (p q r : Pattern) :
    SameRegex (sequence (sequence p q) r) (sequence p (sequence q r)) ∧
      SameRegex (alternation (alternation p q) r) (alternation p (alternation q r)) := by
  have regrouped (j : Joint) : SameRegex (j.node (j.node p q) r) (j.node p (j.node q r)) :=
    sameRegex_of_parts (j := j) (by simp only [Joint.parts_node, List.append_assoc])
  exact ⟨regrouped .row, regrouped .choice⟩

end Pattern

end TextMate
