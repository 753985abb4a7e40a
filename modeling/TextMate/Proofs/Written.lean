import TextMate.Proofs.Scanned
import TextMate.Proofs.Slots

/-!
# Who wrote which parenthesis

An address leads from a pattern down to one of its nodes. The written text of a pattern is its
compiled text, where the parenthesis that opens the group of a node carries the address of that
node. What a scan counts in the text are the parentheses of the nodes, in the order of the groups
of the fragment (`openings_written`), and those that the leaves bring along.
-/

set_option autoImplicit false

namespace TextMate

open Regex (openings labelled Precedence)

/-- The way from a node to one of its parts. -/
inductive Turn where
  | first
  | second
  /-- To the part of a node that has only one. -/
  | inner
  deriving DecidableEq, Repr

/-- The turns from a pattern to one of its nodes. -/
abbrev Address := List Turn

/-- A text that knows which node wrote the parenthesis of a numbered group. -/
abbrev Written := List (Char × Option Address)

namespace Written

/-- A text that opens no group for a node. -/
def plain (text : String) : Written :=
  labelled none text.toList

/-- The text as a part of a larger pattern. -/
def under (turn : Turn) (w : Written) : Written :=
  w.map fun x => (x.1, x.2.map (turn :: ·))

/-- The text in a numbered group of the node itself. -/
def inGroup (w : Written) : Written :=
  ('(', some []) :: (w ++ plain ")")

/-- The text in a group without a number. -/
def inBrackets (opening : String) (w : Written) : Written :=
  plain opening ++ (w ++ plain ")")

/-- The text of `f`, guarded if `f` binds looser than `least`. -/
def guarded (least : Precedence) (f : Fragment) (w : Written) : Written :=
  if f.precedence < least then w.inBrackets "(?:" else w

/-- The addresses in a text, from left to right. -/
def addresses (w : Written) : List Address :=
  w.filterMap Prod.snd

end Written

namespace Pattern

/-- The part of a node to which a turn leads. -/
def part? : Pattern → Turn → Option Pattern
  | sequence p _, .first | alternation p _, .first => some p
  | sequence _ q, .second | alternation _ q, .second => some q
  | repetition p _ _, .inner | capture p _ _, .inner | look _ p, .inner | tag p _ _, .inner => some p
  | _, _ => none

/-- The node at an address. -/
def at? (p : Pattern) : Address → Option Pattern
  | [] => some p
  | turn :: address => (p.part? turn).bind fun part => part.at? address

/-- The capture for which the node itself opens a group. -/
def opened? : Pattern → Option CaptureId
  | capture _ name serial => some ⟨serial, some name⟩
  | tag element _ serial => if element.hasTarget then none else some ⟨serial, none⟩
  | _ => none

/-- The capture for which the node at an address opens a group. -/
def openedAt? (p : Pattern) (address : Address) : Option CaptureId :=
  (p.at? address).bind opened?

/-- The written text `w` of a pattern, guarded like its fragment. -/
def guardedText (least : Precedence) (p : Pattern) (w : Written) : Written :=
  match p.compile with
  | .ok f => w.guarded least f
  | .error _ => w

/-- The compiled text of the pattern, with the address of each node that opens a group on the
parenthesis of that group. -/
def written : Pattern → Written
  | leaf text => .plain text
  | sequence p q =>
    guardedText .sequence p (p.written.under .first) ++
      guardedText .sequence q (q.written.under .second)
  | alternation p q => p.written.under .first ++ (.plain "|" ++ q.written.under .second)
  | repetition p min max =>
    guardedText .atom p (p.written.under .inner) ++
      .plain ((Regex.quantifier min max).toOption.getD "")
  | capture p _ _ => (p.written.under .inner).inGroup
  | look kind p => (p.written.under .inner).inBrackets (Fragment.lookOpening kind)
  | tag p _ _ => if p.hasTarget then p.written.under .inner else (p.written.under .inner).inGroup

end Pattern

namespace Written

@[simp] theorem map_fst_plain (text : String) : (plain text).map Prod.fst = text.toList :=
  Regex.map_fst_labelled none text.toList

@[simp] theorem map_fst_under (turn : Turn) (w : Written) :
    (w.under turn).map Prod.fst = w.map Prod.fst := by
  simp [under, Function.comp_def]

@[simp] theorem map_fst_inGroup (w : Written) :
    w.inGroup.map Prod.fst = '(' :: (w.map Prod.fst ++ [')']) := by
  simp [inGroup]

@[simp] theorem map_fst_inBrackets (opening : String) (w : Written) :
    (w.inBrackets opening).map Prod.fst = opening.toList ++ (w.map Prod.fst ++ [')']) := by
  simp [inBrackets]

theorem map_fst_guarded {least : Precedence} {f : Fragment} {w : Written}
    (h : w.map Prod.fst = f.text.toList) :
    (w.guarded least f).map Prod.fst = (f.guarded least).text.toList := by
  unfold guarded Fragment.guarded
  split <;> simp [h]

end Written

namespace Pattern

theorem guardedText_eq {p : Pattern} {f : Fragment} (h : Builds p f) (least : Precedence)
    (w : Written) : p.guardedText least w = w.guarded least f := by
  rw [guardedText, compile_of_builds h]

/-- Without the addresses the written text is the compiled one. -/
theorem map_fst_written {p : Pattern} {f : Fragment} (h : Builds p f) :
    p.written.map Prod.fst = f.text.toList := by
  induction h with
  | leaf text => exact Written.map_fst_plain text
  | sequence hp hq ihp ihq =>
    rw [written, guardedText_eq hp, guardedText_eq hq, List.map_append,
      Written.map_fst_guarded (by simpa using ihp), Written.map_fst_guarded (by simpa using ihq),
      Fragment.beside, Fragment.chars_adjoined]
  | alternation _ _ ihp ihq => simp [written, ihp, ihq, Fragment.chars_either]
  | repetition hq _ hp ih =>
    rw [written, guardedText_eq hp, hq, List.map_append,
      Written.map_fst_guarded (by simpa using ih), Fragment.chars_quantified]
    simp [Except.toOption]
  | capture name serial _ ih => simp [written, ih, Fragment.chars_inGroup]
  | look kind _ ih => simp [written, ih, Fragment.chars_looked]
  | tag scopes serial target _ ih =>
    rw [written, if_pos (hasTarget_of_some target), Written.map_fst_under]
    exact ih
  | tagged scopes serial target _ _ ih =>
    rw [written, if_neg (not_hasTarget_of_none target)]
    simp [ih, Fragment.highlight, Fragment.chars_inGroup]

@[simp] theorem openedAt?_cons (p : Pattern) (turn : Turn) (address : Address) :
    p.openedAt? (turn :: address) = (p.part? turn).bind fun part => part.openedAt? address := by
  rw [openedAt?, at?]
  cases p.part? turn <;> rfl

/-- The nodes that open the numbered groups, from left to right. The groups that a leaf opens
belong to no node. -/
def openers : Pattern → List (Option Address)
  | leaf text => List.replicate (Regex.captureCount text) none
  | sequence p q | alternation p q =>
    p.openers.map (Option.map (.first :: ·)) ++ q.openers.map (Option.map (.second :: ·))
  | repetition p _ _ | look _ p => p.openers.map (Option.map (.inner :: ·))
  | capture p _ _ => some [] :: p.openers.map (Option.map (.inner :: ·))
  | tag p _ _ =>
    if p.hasTarget then p.openers.map (Option.map (.inner :: ·))
    else some [] :: p.openers.map (Option.map (.inner :: ·))

theorem map_openedAt?_under {p q : Pattern} {turn : Turn} (h : p.part? turn = some q)
    (addresses : List (Option Address)) :
    (addresses.map (Option.map (turn :: ·))).map (fun a => a.bind p.openedAt?) =
      addresses.map fun a => a.bind q.openedAt? := by
  rw [List.map_map]
  apply List.map_congr_left
  intro a _
  cases a with
  | none => rfl
  | some address => simp [h]

/-- Each node opens its group for the capture of the slot. -/
theorem map_openers (p : Pattern) : p.openers.map (fun a => a.bind p.openedAt?) = p.slots := by
  induction p with
  | leaf text => simp [openers, slots]
  | sequence p q ihp ihq | alternation p q ihp ihq =>
    rw [openers, List.map_append, map_openedAt?_under rfl, map_openedAt?_under rfl, ihp, ihq, slots]
  | repetition p _ _ ih | look _ p ih => rw [openers, map_openedAt?_under rfl, ih, slots]
  | capture p name serial ih =>
    rw [openers, List.map_cons, map_openedAt?_under rfl, ih, slots]
    rfl
  | tag p scopes serial ih =>
    rw [openers, slots]
    split
    · rw [map_openedAt?_under rfl, ih]
    · next own =>
      rw [List.map_cons, map_openedAt?_under rfl, ih]
      simp [openedAt?, at?, opened?, own]

theorem some_mem_under (turn : Turn) {address : Address} {addresses : List (Option Address)}
    (h : some address ∈ addresses) :
    some (turn :: address) ∈ addresses.map (Option.map (turn :: ·)) :=
  List.mem_map.2 ⟨some address, h, rfl⟩

/-- The groups of a part are groups of the whole. -/
theorem mem_openers_of_part {p q : Pattern} {turn : Turn} {address : Address}
    (h : p.part? turn = some q) (mem : some address ∈ q.openers) :
    some (turn :: address) ∈ p.openers := by
  have moved := some_mem_under turn mem
  cases p <;> cases turn <;> cases h <;> simp only [openers]
  case tag.inner.refl =>
    split
    · exact moved
    · exact List.mem_cons_of_mem _ moved
  all_goals simp only [List.mem_append, List.mem_cons, moved, true_or, or_true]

/-- Every node that opens a group is listed. -/
theorem mem_openers {p : Pattern} {address : Address} {id : CaptureId}
    (h : p.openedAt? address = some id) : some address ∈ p.openers := by
  induction address generalizing p with
  | nil =>
    cases p with
    | capture => exact List.mem_cons_self
    | tag p scopes serial => 
      simp only [openedAt?, at?, Option.bind_some, opened?] at h
      split at h
      · cases h
      · next own => 
        rw [openers, if_neg own]
        exact List.mem_cons_self
    | _ => cases h
  | cons turn rest ih =>
    rw [openedAt?_cons, Option.bind_eq_some_iff] at h
    obtain ⟨q, part, h⟩ := h
    exact mem_openers_of_part part (ih h)

end Pattern

namespace Written

variable {w : Written}

theorem openings_plain (text : String) :
    openings .top (plain text) = List.replicate (Regex.captureCount text) none :=
  Regex.openings_labelled .top text.toList none

theorem openings_under (turn : Turn) (w : Written) :
    openings .top (w.under turn) = (openings .top w).map (Option.map (turn :: ·)) :=
  Regex.openings_map (Option.map (turn :: ·)) .top w

/-- The group of a node is the first one in its text. -/
theorem openings_inGroup (h : Regex.SelfContained (w.map Prod.fst)) :
    openings .top w.inGroup = some [] :: openings .top w :=
  Regex.openings_numbered w (some []) none h.head?_ne

theorem openings_inBrackets {opening : String} (ho : opening.toList ∈ Regex.groupOpenings)
    (hn : opening.toList ≠ ['(']) : openings .top (w.inBrackets opening) = openings .top w :=
  Regex.openings_unnumbered ho hn w none none

theorem openings_guarded (least : Precedence) (f : Fragment) :
    openings .top (w.guarded least f) = openings .top w := by
  unfold guarded
  split
  · exact openings_inBrackets (by decide) (by decide)
  · rfl

end Written

/-- A scan counts the parentheses of the nodes that open a group, in their order. -/
theorem openings_written {p : Pattern} {f : Fragment} (h : Builds p f) (hp : p.SelfContained) :
    openings .top p.written = p.openers := by
  have contained {q : Pattern} {g : Fragment} (hg : Builds q g) (hq : q.SelfContained)
      (turn : Turn) : Regex.SelfContained ((q.written.under turn).map Prod.fst) := by
    rw [Written.map_fst_under, Pattern.map_fst_written hg]
    exact (scanned hg hq).selfContained
  have guarded {q : Pattern} {g : Fragment} (hg : Builds q g) (hq : q.SelfContained)
      (least : Precedence) (turn : Turn) :
      Regex.SelfContained (((q.written.under turn).guarded least g).map Prod.fst) := by
    have chars : (q.written.under turn).map Prod.fst = g.text.toList := by
      rw [Written.map_fst_under, Pattern.map_fst_written hg]
    rw [Written.map_fst_guarded chars]
    exact ((scanned hg hq).guarded least).selfContained
  induction h with
  | leaf text => exact Written.openings_plain text
  | @sequence p q f g hf hg ihp ihq =>
    obtain ⟨hp, hq⟩ := Pattern.selfContained_sequence.1 hp
    rw [Pattern.written, Pattern.guardedText_eq hf, Pattern.guardedText_eq hg,
      Regex.openings_append_of_selfContained (guarded hf hp _ _), Written.openings_guarded,
      Written.openings_guarded, Written.openings_under, Written.openings_under, ihp hp, ihq hq,
      Pattern.openers]
  | @alternation p q f g hf hg ihp ihq =>
    obtain ⟨hp, hq⟩ := Pattern.selfContained_alternation.1 hp
    rw [Pattern.written, Regex.openings_append_of_selfContained (contained hf hp _),
      Regex.openings_append_of_selfContained (by simpa using Regex.SelfContained.bar),
      Written.openings_under, Written.openings_under, ihp hp, ihq hq, Pattern.openers]
    rfl
  | @repetition p f min max quantifier hq _ hf ih =>
    have none : openings .top (Written.plain quantifier) = [] :=
      Regex.openings_quantifier (Regex.isQuantifier_of_quantifier hq) _
    rw [Pattern.written, Pattern.guardedText_eq hf, hq,
      Regex.openings_append_of_selfContained (guarded hf hp _ _), Written.openings_guarded,
      Written.openings_under, ih hp, Pattern.openers, Except.toOption, Option.getD_some, none,
      List.append_nil]
  | capture name serial hf ih =>
    rw [Pattern.written, Written.openings_inGroup (contained hf hp _), Written.openings_under, ih hp,
      Pattern.openers]
  | look kind hf ih =>
    have opening : (Fragment.lookOpening kind).toList ∈ Regex.groupOpenings ∧
        (Fragment.lookOpening kind).toList ≠ ['('] := by
      cases kind <;> decide
    rw [Pattern.written, Written.openings_inBrackets opening.1 opening.2, Written.openings_under,
      ih hp, Pattern.openers]
  | @tag p f id scopes serial target hf ih =>
    have own : p.hasTarget = true := Pattern.hasTarget_of_some target
    rw [Pattern.written, if_pos own, Written.openings_under, ih hp, Pattern.openers, if_pos own]
  | @tagged p f scopes serial target taggable hf ih =>
    have own : ¬ p.hasTarget = true := Pattern.not_hasTarget_of_none target
    rw [Pattern.written, if_neg own, Written.openings_inGroup (contained hf hp _),
      Written.openings_under, ih hp, Pattern.openers, if_neg own]

namespace Written

variable (v w : Written)

@[simp] theorem addresses_append : (v ++ w).addresses = v.addresses ++ w.addresses :=
  List.filterMap_append

@[simp] theorem addresses_plain (text : String) : (plain text).addresses = [] := by
  simp [addresses, plain, labelled]

@[simp] theorem addresses_under (turn : Turn) :
    (w.under turn).addresses = w.addresses.map (turn :: ·) := by
  simp only [addresses, under, List.filterMap_map, List.map_filterMap]
  rfl

@[simp] theorem addresses_inGroup : w.inGroup.addresses = [] :: w.addresses := by
  change [] :: (w ++ plain ")").addresses = _
  simp

@[simp] theorem addresses_inBrackets (opening : String) :
    (w.inBrackets opening).addresses = w.addresses := by
  simp [inBrackets]

@[simp] theorem addresses_guardedText (least : Precedence) (p : Pattern) :
    (p.guardedText least w).addresses = w.addresses := by
  unfold Pattern.guardedText guarded
  split
  · split <;> simp
  · rfl

end Written

theorem nodup_under (turn : Turn) {addresses : List Address} (h : addresses.Nodup) :
    (addresses.map (turn :: ·)).Nodup := by
  refine List.pairwise_map.2 (h.imp ?_)
  intro a b ne eq
  exact ne (List.cons.inj eq).2

theorem nodup_beside {as bs : List Address} (ha : as.Nodup) (hb : bs.Nodup) :
    (as.map (Turn.first :: ·) ++ bs.map (Turn.second :: ·)).Nodup := by
  refine List.nodup_append.2 ⟨nodup_under _ ha, nodup_under _ hb, ?_⟩
  intro a mem b mem' eq
  obtain ⟨_, -, rfl⟩ := List.mem_map.1 mem
  obtain ⟨_, -, rfl⟩ := List.mem_map.1 mem'
  cases eq

theorem nodup_inGroup {addresses : List Address} (h : addresses.Nodup) :
    ([] :: addresses.map (Turn.inner :: ·)).Nodup := by
  refine List.nodup_cons.2 ⟨?_, nodup_under _ h⟩
  simp

/-- A node writes one parenthesis at most. -/
theorem nodup_addresses_written (p : Pattern) : p.written.addresses.Nodup := by
  induction p with
  | leaf text => simp [Pattern.written]
  | sequence p q ihp ihq => simpa [Pattern.written] using nodup_beside ihp ihq
  | alternation p q ihp ihq => simpa [Pattern.written] using nodup_beside ihp ihq
  | repetition p min max ih => simpa [Pattern.written] using nodup_under .inner ih
  | capture p name serial ih => simpa [Pattern.written] using nodup_inGroup ih
  | look kind p ih => simpa [Pattern.written] using nodup_under .inner ih
  | tag p scopes serial ih =>
    rw [Pattern.written]
    split
    · simpa using nodup_under .inner ih
    · simpa using nodup_inGroup ih

namespace Written

variable {w : Written} {address : Address} {c d : Char} {i j : Nat}

theorem mem_addresses (h : w[i]? = some (c, some address)) : address ∈ w.addresses :=
  List.mem_filterMap.2 ⟨_, List.mem_of_getElem? h, rfl⟩

/-- An address leads to one character. -/
theorem index_unique (h : w.addresses.Nodup) (hi : w[i]? = some (c, some address))
    (hj : w[j]? = some (d, some address)) : i = j := by
  induction w generalizing i j with
  | nil => cases hi
  | cons x rest ih =>
    have tail : addresses rest |>.Nodup := (List.sublist_cons_self x rest).filterMap Prod.snd |>.nodup h
    have other {n : Nat} {b : Char} (here : x.2 = some address)
        (there : rest[n]? = some (b, some address)) : False := by
      rw [addresses, List.filterMap_cons_some here] at h
      exact (List.nodup_cons.1 h).1 (mem_addresses there)
    cases i with
    | zero =>
      cases j with
      | zero => rfl
      | succ j => 
        rw [List.getElem?_cons_zero, Option.some.injEq] at hi
        exact (other (by rw [hi]) hj).elim
    | succ i =>
      cases j with
      | zero => 
        rw [List.getElem?_cons_zero, Option.some.injEq] at hj
        exact (other (by rw [hj]) hi).elim
      | succ j => exact congrArg (· + 1) (ih tail hi hj)

end Written

end TextMate
