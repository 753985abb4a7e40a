import Mathlib.Data.Set.Function
import TextMate.Proofs.Emission

/-!
# New serial numbers

The serial numbers of captures are only ever compared. If different captures keep different numbers
then nothing that is emitted for a pattern depends on which numbers they are (`emitted_rename`): the
groups, the names and the highlights of the fragment are renamed with the pattern, and what is read
off them is the same.
-/

set_option autoImplicit false

namespace TextMate

/-- The capture with another serial number. -/
def CaptureId.rename (ρ : Nat → Nat) (id : CaptureId) : CaptureId :=
  { id with serial := ρ id.serial }

namespace Pattern

/-- The pattern with other serial numbers. -/
def rename (ρ : Nat → Nat) : Pattern → Pattern
  | leaf text => leaf text
  | sequence p q => sequence (p.rename ρ) (q.rename ρ)
  | alternation p q => alternation (p.rename ρ) (q.rename ρ)
  | repetition p min max => repetition (p.rename ρ) min max
  | capture p name serial => capture (p.rename ρ) name (ρ serial)
  | look kind p => look kind (p.rename ρ)
  | tag p scopes serial => tag (p.rename ρ) scopes (ρ serial)

theorem target?_rename (ρ : Nat → Nat) (p : Pattern) :
    (p.rename ρ).target? = p.target?.map (CaptureId.rename ρ) := by
  induction p with
  | tag p scopes serial ih =>
    rw [rename, target?, target?, ih]
    cases p.target? <;> rfl
  | _ => rfl

theorem untaggable?_rename (ρ : Nat → Nat) (p : Pattern) :
    (p.rename ρ).untaggable? = p.untaggable? := by
  cases p <;> rfl

end Pattern

namespace Fragment

/-- The fragment with other serial numbers. -/
def rename (ρ : Nat → Nat) (f : Fragment) : Fragment :=
  { f with
    groups := f.groups.map (Option.map (CaptureId.rename ρ))
    bound := f.bound.map (CaptureId.rename ρ)
    highlights := f.highlights.map fun h => (h.1.rename ρ, h.2) }

variable (ρ : Nat → Nat) (f g : Fragment)

theorem rename_leaf (text : String) : (leaf text).rename ρ = leaf text := by
  simp [rename, leaf]

theorem rename_guarded (least : Regex.Precedence) :
    (f.guarded least).rename ρ = (f.rename ρ).guarded least := by
  unfold guarded
  change (if f.precedence < least then _ else _ : Fragment).rename ρ =
    if f.precedence < least then _ else _
  split <;> rfl

theorem rename_joined (separator : String) (precedence : Regex.Precedence) :
    (f.joined g separator precedence).rename ρ =
      (f.rename ρ).joined (g.rename ρ) separator precedence := by
  simp [rename, joined]

theorem rename_beside : (f.beside g).rename ρ = (f.rename ρ).beside (g.rename ρ) := by
  rw [beside, beside, ← rename_guarded, ← rename_guarded, adjoined, rename_joined]
  rfl

theorem rename_either : (f.either g).rename ρ = (f.rename ρ).either (g.rename ρ) :=
  rename_joined ρ f g "|" .alternation

theorem rename_repeated (quantifier : String) :
    (f.rename ρ).repeated quantifier = (f.repeated quantifier).map (rename ρ) := by
  unfold repeated
  rw [← rename_guarded]
  change (if (f.guarded .atom).text = "" then _ else _) = _
  split <;> rfl

theorem rename_inGroup (id : CaptureId) :
    (f.inGroup id).rename ρ = (f.rename ρ).inGroup (id.rename ρ) := by
  unfold inGroup rename
  cases h : id.name? <;> simp [CaptureId.rename, h]

theorem rename_highlight (id : CaptureId) (scopes : List Scope) :
    (f.highlight id scopes).rename ρ = (f.rename ρ).highlight (id.rename ρ) scopes := by
  simp [rename, highlight]

end Fragment

/-- A renamed pattern compiles to the renamed fragment, or fails with the same fault. -/
theorem compile_rename (ρ : Nat → Nat) (p : Pattern) :
    (p.rename ρ).compile = p.compile.map (Fragment.rename ρ) := by
  induction p with
  | leaf text => exact congrArg Except.ok (Fragment.rename_leaf ρ text).symm
  | sequence p q ihp ihq =>
    rw [Pattern.rename, Pattern.compile, Pattern.compile, ihp, ihq]
    cases p.compile with
    | error fault => rfl
    | ok f =>
      cases q.compile with
      | error fault => rfl
      | ok g => exact congrArg Except.ok (Fragment.rename_beside ρ f g).symm
  | alternation p q ihp ihq =>
    rw [Pattern.rename, Pattern.compile, Pattern.compile, ihp, ihq]
    cases p.compile with
    | error fault => rfl
    | ok f =>
      cases q.compile with
      | error fault => rfl
      | ok g => exact congrArg Except.ok (Fragment.rename_either ρ f g).symm
  | repetition p min max ih =>
    rw [Pattern.rename, Pattern.compile, Pattern.compile, ih]
    cases Regex.quantifier min max with
    | error fault => rfl
    | ok quantifier =>
      cases p.compile with
      | error fault => rfl
      | ok f => exact Fragment.rename_repeated ρ f quantifier
  | capture p name serial ih =>
    rw [Pattern.rename, Pattern.compile, Pattern.compile, ih]
    cases p.compile with
    | error fault => rfl
    | ok f => exact congrArg Except.ok (Fragment.rename_inGroup ρ f ⟨serial, some name⟩).symm
  | look kind p ih =>
    rw [Pattern.rename, Pattern.compile, Pattern.compile, ih]
    cases p.compile <;> rfl
  | tag p scopes serial ih =>
    rw [Pattern.rename, Pattern.compile, Pattern.compile, Pattern.untaggable?_rename,
      Pattern.target?_rename, ih]
    cases p.untaggable? with
    | some reason => rfl
    | none =>
      cases p.target? with
      | some id =>
        cases p.compile with
        | error fault => rfl
        | ok f => exact congrArg Except.ok (Fragment.rename_highlight ρ f id scopes).symm
      | none =>
        cases p.compile with
        | error fault => rfl
        | ok f =>
          refine congrArg Except.ok ?_
          rw [Fragment.rename_highlight, Fragment.rename_inGroup]
          rfl

namespace Pattern

variable (ρ : Nat → Nat) (p : Pattern) {name : String} {id : CaptureId}

theorem namedCaptures_rename :
    (p.rename ρ).namedCaptures = p.namedCaptures.map (CaptureId.rename ρ) := by
  induction p with
  | leaf text => rfl
  | sequence p q ihp ihq | alternation p q ihp ihq =>
    rw [rename, namedCaptures, namedCaptures, List.map_append, ihp, ihq]
  | repetition p _ _ ih | look _ p ih | tag p _ _ ih => exact ih
  | capture p name serial ih =>
    rw [rename, namedCaptures, namedCaptures, List.map_append, ih]
    rfl

/-- A renamed capture keeps its name. -/
theorem calls_rename :
    (p.rename ρ).Calls name id ↔ ∃ id', p.Calls name id' ∧ id = id'.rename ρ := by
  unfold Calls
  rw [namedCaptures_rename, List.mem_map]
  constructor
  · rintro ⟨⟨id', mem, rfl⟩, named⟩
    exact ⟨id', ⟨mem, named⟩, rfl⟩
  · rintro ⟨id', ⟨mem, named⟩, rfl⟩
    exact ⟨⟨id', mem, rfl⟩, named⟩

end Pattern

section Kept

variable {ρ : Nat → Nat} {p : Pattern} {f : Fragment} {id id' : CaptureId} {name : String}

/-- Different captures with a group stay different. -/
theorem eq_of_rename_eq (apart : Set.InjOn ρ {n | n ∈ p.serials}) (h : some id ∈ p.slots) (h' : some id' ∈ p.slots)
    (same : id.rename ρ = id'.rename ρ) : id = id' := by
  have mem := Pattern.serial_mem_of_mem_slots h
  have mem' := Pattern.serial_mem_of_mem_slots h'
  obtain ⟨serial, name⟩ := id
  obtain ⟨serial', name'⟩ := id'
  obtain ⟨number, rfl⟩ := CaptureId.mk.inj same
  obtain rfl : serial = serial' := apart mem mem' number
  rfl

theorem isAmbiguous_rename (apart : Set.InjOn ρ {n | n ∈ p.serials}) :
    (p.rename ρ).IsAmbiguous name ↔ p.IsAmbiguous name := by
  unfold Pattern.IsAmbiguous
  constructor
  · rintro ⟨_, _, ha, hb, ne⟩
    obtain ⟨a, calledA, rfl⟩ := (Pattern.calls_rename ρ p).1 ha
    obtain ⟨b, calledB, rfl⟩ := (Pattern.calls_rename ρ p).1 hb
    exact ⟨a, b, calledA, calledB, fun same => ne (congrArg _ same)⟩
  · rintro ⟨a, b, ha, hb, ne⟩
    refine ⟨_, _, (Pattern.calls_rename ρ p).2 ⟨a, ha, rfl⟩,
      (Pattern.calls_rename ρ p).2 ⟨b, hb, rfl⟩, fun same => ne ?_⟩
    exact eq_of_rename_eq apart (Pattern.mem_slots_of_named ha.1) (Pattern.mem_slots_of_named hb.1)
      same

theorem builds_rename (h : Builds p f) (ρ : Nat → Nat) : Builds (p.rename ρ) (f.rename ρ) := by
  rw [builds_iff, compile_rename, compile_of_builds h]
  rfl

/-- A name finds groups after the renaming exactly if it does before. -/
theorem checkName_rename (h : Builds p f) (apart : Set.InjOn ρ {n | n ∈ p.serials}) (name : String) :
    (f.rename ρ).checkName name = f.checkName name := by
  have renamed := builds_rename h ρ
  have ambiguous : (f.rename ρ).isAmbiguous name = f.isAmbiguous name := by
    rw [Bool.eq_iff_iff, isAmbiguous_of_builds renamed, isAmbiguous_of_builds h,
      isAmbiguous_rename apart]
  have unfound : (f.rename ρ).groupsNamed name = [] ↔ f.groupsNamed name = [] := by
    rw [groupsNamed_eq_nil_iff renamed, groupsNamed_eq_nil_iff h]
    constructor
    · intro none id called
      exact none _ ((Pattern.calls_rename ρ p).2 ⟨id, called, rfl⟩)
    · intro none id called
      obtain ⟨id', called, -⟩ := (Pattern.calls_rename ρ p).1 called
      exact none id' called
  unfold Fragment.checkName
  rw [ambiguous]
  simp only [unfound]
  rfl

variable {α : Type} {declared : NameMap (Declaration α)}

theorem mem_slots_of_mem_highlights (h : Builds p f) {t : CaptureId × List Scope}
    (mem : t ∈ f.highlights) : some t.1 ∈ p.slots := by
  rw [highlights_of_builds h] at mem
  exact Pattern.mem_slots_of_isTagged (List.mem_map_of_mem mem)

/-- A capture with a group has the same style after the renaming. -/
theorem styleOf?_rename (h : Builds p f) (apart : Set.InjOn ρ {n | n ∈ p.serials}) (slot : some id ∈ p.slots) :
    (f.rename ρ).styleOf? declared (id.rename ρ) = f.styleOf? declared id := by
  have declaration : Fragment.declarationFor? declared (id.rename ρ) =
      Fragment.declarationFor? declared id := rfl
  have own {t : CaptureId × List Scope} (mem : t ∈ f.highlights) :
      t.1.rename ρ = id.rename ρ ↔ t.1 = id := by
    constructor
    · exact eq_of_rename_eq apart (mem_slots_of_mem_highlights h mem) slot
    · exact congrArg _
  have highlighted : id.rename ρ ∈ (f.rename ρ).highlighted ↔ id ∈ f.highlighted := by
    simp only [Fragment.highlighted, Fragment.rename, List.mem_eraseDups, List.map_map, List.mem_map,
      Function.comp_apply]
    exact exists_congr fun t => and_congr_right own
  have tags : (f.rename ρ).tagsOf (id.rename ρ) = f.tagsOf id := by
    unfold Fragment.tagsOf Fragment.rename
    rw [List.filter_map, List.flatMap_map]
    refine congrArg (fun ts : List (CaptureId × List Scope) => (ts.flatMap Prod.snd).eraseDups) ?_
    refine List.filter_congr fun t mem => ?_
    rw [Function.comp_apply, decide_eq_decide]
    exact own mem
  unfold Fragment.styleOf? Fragment.declaredScope? Fragment.declaredPatterns
  rw [declaration, tags]
  simp only [highlighted]

/-- The styles of a compiled pattern do not depend on its serial numbers. -/
theorem styles_rename (h : Builds p f) (apart : Set.InjOn ρ {n | n ∈ p.serials}) :
    (f.rename ρ).styles declared = f.styles declared := by
  have renamed := builds_rename h ρ
  have own (groups : List (Option CaptureId)) (sub : ∀ id, some id ∈ groups → some id ∈ p.slots)
      (i : Nat) : (f.rename ρ).stylesFrom declared i (groups.map (Option.map (CaptureId.rename ρ))) =
        f.stylesFrom declared i groups := by
    induction groups generalizing i with
    | nil => rfl
    | cons label rest ih =>
      rw [List.map_cons, Fragment.stylesFrom_cons, Fragment.stylesFrom_cons,
        ih fun id mem => sub id (List.mem_cons_of_mem _ mem)]
      cases label with
      | none => rfl
      | some id =>
        have same : (f.rename ρ).styleOf? declared _ = f.styleOf? declared id :=
          styleOf?_rename h apart (sub id List.mem_cons_self)
        rw [Option.map_some, Option.bind_some, Option.bind_some, same]
  have groups := own f.groups (fun id mem => by rwa [groups_of_builds h] at mem) 1
  unfold Fragment.stylesFrom at groups
  unfold Fragment.styles
  rw [checkHighlighted_of_builds renamed, checkHighlighted_of_builds h]
  simp only [checkName_rename h apart]
  exact congrArg (fun own => _ >>= fun _ => _ >>= fun _ => Except.ok (_ ++ own)) groups

/-- What is emitted for a pattern does not depend on its serial numbers. -/
theorem emitted_rename (elidable : Bool) (apart : Set.InjOn ρ {n | n ∈ p.serials})
    (declared : List (String × Declaration α)) :
    emitted elidable (p.rename ρ) declared = emitted elidable p declared := by
  unfold emitted
  rw [compile_rename]
  cases compiled : p.compile with
  | error fault => rfl
  | ok f =>
    change ((f.rename ρ).styles _ >>= fun _ => _) = (f.styles _ >>= fun _ => _)
    rw [styles_rename (builds_of_compile compiled) apart]
    rfl

end Kept

end TextMate
