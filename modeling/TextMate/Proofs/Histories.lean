import TextMate.Proofs.Authoring

/-!
# What a history leaves behind

A call changes what is under one handle and keeps the rest (`Steps`), so what has been built stays, and
is made of what it was built from (`Explained`). Histories with the same calls build the same things
(`agree_runWith`).
-/

set_option autoImplicit false

namespace TextMate

/-! ## Calls -/

theorem Declaration.map_congr {α β : Type} {f g : α → β} {spec : Declaration α}
    (h : ∀ a ∈ spec.patterns, f a = g a) : spec.map f = spec.map g := by
  cases spec with
  | scope s => rfl
  | rule s patterns => exact congrArg (Declaration.rule s) (List.map_congr_left h)

theorem declared_map_congr {α β : Type} {f g : α → β} {declared : List (String × Declaration α)}
    (h : ∀ a ∈ declared.flatMap fun e => e.2.patterns, f a = g a) :
    (declared.map fun e => (e.1, e.2.map f)) = declared.map fun e => (e.1, e.2.map g) := by
  refine List.map_congr_left fun e mem => ?_
  refine congrArg (Prod.mk e.1) (Declaration.map_congr fun a used => ?_)
  exact h a (List.mem_flatMap.2 ⟨e, mem, used⟩)

namespace PatternCall

variable {patterns patterns' : Handle → Pattern} {call : PatternCall}

/-- A pattern is made of what is used for it. -/
theorem value_congr (h : ∀ x ∈ call.uses, patterns x = patterns' x) (n : Nat) :
    call.value patterns n = call.value patterns' n := by
  cases call with
  | leaf text => rfl
  | sequence p q =>
    exact congrArg₂ Pattern.sequence (h p (by simp [uses])) (h q (by simp [uses]))
  | alternation p q =>
    exact congrArg₂ Pattern.alternation (h p (by simp [uses])) (h q (by simp [uses]))
  | repetition p min max => exact congrArg (Pattern.repetition · min max) (h p (by simp [uses]))
  | capture p name => exact congrArg (Pattern.capture · name n) (h p (by simp [uses]))
  | look kind p => exact congrArg (Pattern.look kind) (h p (by simp [uses]))
  | tag p scopes => exact congrArg (Pattern.tag · scopes n) (h p (by simp [uses]))

theorem value_rename (ρ : Nat → Nat) (patterns : Handle → Pattern) (n : Nat) (call : PatternCall) :
    call.value (fun x => (patterns x).rename ρ) (ρ n) = (call.value patterns n).rename ρ := by
  cases call <;> rfl

/-- The number only shows in captures and highlights. -/
theorem value_of_not_takesSerial (h : call.takesSerial = false) (m n : Nat) :
    call.value patterns m = call.value patterns n := by
  cases call with
  | capture p name => cases h
  | tag p scopes => cases h
  | _ => rfl

theorem build_next (patterns : Handle → Pattern) (n : Nat) (call : PatternCall) :
    ((call.build patterns).run n).2 = if call.takesSerial then n + 1 else n := by
  cases call <;> rfl

end PatternCall

namespace ModeCall

variable {patterns patterns' : Handle → Pattern} {modes modes' : Handle → Mode} {call : ModeCall}

/-- A mode is made of what is used for it. -/
theorem value_congr (hp : ∀ x ∈ call.patterns, patterns x = patterns' x)
    (hm : ∀ x ∈ call.modes, modes x = modes' x) :
    call.value patterns modes = call.value patterns' modes' := by
  cases call with
  | single p scope captures contains =>
    obtain ⟨declared, listed⟩ := List.forall_mem_append.1 hm
    rw [value, value, hp p List.mem_cons_self, declared_map_congr declared,
      List.map_congr_left listed]
  | span p q scope contentScope openingCaptures closingCaptures contains closingLast =>
    obtain ⟨opened, rest⟩ := List.forall_mem_append.1 hm
    obtain ⟨closed, listed⟩ := List.forall_mem_append.1 rest
    rw [value, value, hp p List.mem_cons_self, hp q (List.mem_cons_of_mem _ List.mem_cons_self),
      declared_map_congr opened, declared_map_congr closed, List.map_congr_left listed]
  | group ms => exact congrArg Mode.group (List.map_congr_left hm)
  | includes target => rfl

theorem value_rename (ρ : Nat → Nat) (patterns : Handle → Pattern) (modes : Handle → Mode)
    (call : ModeCall) :
    call.value (fun x => (patterns x).rename ρ) (fun x => (modes x).rename ρ) =
      (call.value patterns modes).rename ρ := by
  have declared (es : List (String × Declaration Handle)) :
      es.map (fun e => (e.1, e.2.map fun x => (modes x).rename ρ)) =
        renameDeclared ρ (es.map fun e => (e.1, e.2.map modes)) := by
    rw [renameDeclared_eq_map, List.map_map]
    refine List.map_congr_left fun e _ => congrArg (Prod.mk e.1) ?_
    obtain ⟨name, spec⟩ := e
    cases spec with
    | scope s => rfl
    | rule s xs =>
      refine congrArg (Declaration.rule s) ?_
      rw [List.map_map]
      rfl
  have listed (xs : List Handle) :
      xs.map (fun x => (modes x).rename ρ) = renameEach ρ (xs.map modes) := by
    rw [renameEach_eq_map, List.map_map]
    rfl
  cases call <;> simp only [value, Mode.rename, declared, listed]

end ModeCall

namespace EntryCall

variable {modes modes' : Handle → Mode} {entry : EntryCall}

theorem value_congr (h : ∀ x ∈ entry.modes, modes x = modes' x) :
    entry.value modes = entry.value modes' := by
  cases entry with
  | one m => exact congrArg Entry.one (h m List.mem_cons_self)
  | several ms => exact congrArg Entry.several (List.map_congr_left h)

theorem value_rename (ρ : Nat → Nat) (modes : Handle → Mode) (entry : EntryCall) :
    entry.value (fun x => (modes x).rename ρ) = (entry.value modes).rename ρ := by
  cases entry with
  | one m => rfl
  | several ms =>
    rw [value, value, Entry.rename, List.map_map]
    rfl

end EntryCall

/-! ## Steps -/

namespace Desk

variable {number : Handle → Nat} {d d' : Desk} {calls : List Call} {x : Handle}

/-- What a call does. -/
inductive Steps (number : Handle → Nat) (d : Desk) : Call → Desk → Prop where
  | pattern {x : Handle} {call : PatternCall} : d.patterns x = none → d.HasPatterns call.uses →
      Steps number d (.pattern x call)
        { d with patterns := assign d.patterns x (call.value d.pattern (number x)) }
  | mode {x : Handle} {call : ModeCall} : d.modes x = none → d.HasPatterns call.patterns →
      d.HasModes call.modes →
      Steps number d (.mode x call)
        { d with modes := assign d.modes x (call.value d.pattern d.mode) }
  | grammar {x : Handle} {name : String} : d.grammars x = none →
      Steps number d (.grammar x name) { d with grammars := assign d.grammars x (.new name) }
  | scopeName {x : Handle} {g : Grammar} {name : String} : d.grammars x = some g →
      Steps number d (.scopeName x name)
        { d with grammars := assign d.grammars x (g.withScopeName name) }
  | fileTypes {x : Handle} {g : Grammar} {extensions : List String} : d.grammars x = some g →
      Steps number d (.fileTypes x extensions)
        { d with grammars := assign d.grammars x (g.withFileTypes extensions) }
  | patterns {x : Handle} {g : Grammar} {modes : List Handle} : d.grammars x = some g →
      d.HasModes modes → Steps number d (.patterns x modes)
        { d with grammars := assign d.grammars x (g.withPatterns (modes.map d.mode)) }
  | rule {x : Handle} {g : Grammar} {name : String} {entry : EntryCall} : d.grammars x = some g →
      d.HasModes entry.modes → Steps number d (.rule x name entry)
        { d with grammars := assign d.grammars x (g.withRule name (entry.value d.mode)) }

/-- A change of a grammar that is there. -/
theorem change_eq_some {f : Grammar → Grammar} {n : Nat} {r : Desk × Nat}
    (h : (d.change x f).map (fun d => (d, n)) = some r) :
    ∃ g, d.grammars x = some g ∧ r.1 = { d with grammars := assign d.grammars x (f g) } := by
  unfold change at h
  rw [Option.map_map] at h
  obtain ⟨g, found, rfl⟩ := Option.map_eq_some_iff.1 h
  exact ⟨g, found, rfl⟩

theorem steps_of_stepWith {call : Call} (h : d.stepWith number call = some d') :
    Steps number d call d' := by
  obtain ⟨r, made, rfl⟩ := Option.map_eq_some_iff.1 h
  cases call with
  | pattern x call =>
    rw [step, Option.ite_none_right_eq_some] at made
    obtain ⟨⟨fresh, used⟩, made⟩ := made
    cases made
    exact .pattern (Option.isNone_iff_eq_none.1 fresh) used
  | mode x call =>
    rw [step, Option.ite_none_right_eq_some] at made
    obtain ⟨⟨fresh, patterns, modes⟩, made⟩ := made
    cases made
    exact .mode (Option.isNone_iff_eq_none.1 fresh) patterns modes
  | grammar x name =>
    rw [step, Option.ite_none_right_eq_some] at made
    obtain ⟨fresh, made⟩ := made
    cases made
    exact .grammar (Option.isNone_iff_eq_none.1 fresh)
  | scopeName x name =>
    obtain ⟨g, found, result⟩ := change_eq_some made
    rw [result]
    exact .scopeName found
  | fileTypes x extensions =>
    obtain ⟨g, found, result⟩ := change_eq_some made
    rw [result]
    exact .fileTypes found
  | patterns x modes =>
    rw [step, Option.ite_none_right_eq_some] at made
    obtain ⟨used, made⟩ := made
    obtain ⟨g, found, result⟩ := change_eq_some made
    rw [result]
    exact .patterns found used
  | rule x name entry =>
    rw [step, Option.ite_none_right_eq_some] at made
    obtain ⟨used, made⟩ := made
    obtain ⟨g, found, result⟩ := change_eq_some made
    rw [result]
    exact .rule found used

variable {call : Call} {y : Handle}

theorem assign_of_some {α : Type} {m : Handle → Option α} {a b : α} (fresh : m x = none)
    (h : m y = some b) : assign m x a y = some b := by
  have ne : y ≠ x := by
    rintro rfl
    cases fresh.symm.trans h
  rw [assign, if_neg ne, h]

/-- A new pattern is made of patterns that were there. -/
theorem Steps.patterns_cases (h : Steps number d call d') {p : Pattern} (found : d'.patterns y = some p) :
    d.patterns y = some p ∨ ∃ c, call = .pattern y c ∧ d.HasPatterns c.uses ∧
      p = c.value d.pattern (number y) := by
  cases h with
  | @pattern x c fresh used =>
    simp only [assign] at found
    split at found
    · next same =>
      cases same
      cases found
      exact .inr ⟨c, rfl, used, rfl⟩
    · exact .inl found
  | _ => exact .inl found

/-- A new mode is made of patterns and modes that were there. -/
theorem Steps.modes_cases (h : Steps number d call d') {m : Mode} (found : d'.modes y = some m) :
    d.modes y = some m ∨ ∃ c, call = .mode y c ∧ d.HasPatterns c.patterns ∧ d.HasModes c.modes ∧
      m = c.value d.pattern d.mode := by
  cases h with
  | @mode x c fresh patterns modes =>
    simp only [assign] at found
    split at found
    · next same =>
      cases same
      cases found
      exact .inr ⟨c, rfl, patterns, modes, rfl⟩
    · exact .inl found
  | _ => exact .inl found

/-- What is there stays. -/
structure Grows (d d' : Desk) : Prop where
  patterns : ∀ x p, d.patterns x = some p → d'.patterns x = some p
  modes : ∀ x m, d.modes x = some m → d'.modes x = some m

theorem Steps.grows (h : Steps number d call d') : d.Grows d' := by
  cases h with
  | pattern fresh _ => exact ⟨fun _ _ found => assign_of_some fresh found, fun _ _ found => found⟩
  | mode fresh _ _ => exact ⟨fun _ _ found => found, fun _ _ found => assign_of_some fresh found⟩
  | _ => exact ⟨fun _ _ found => found, fun _ _ found => found⟩

section Growing

variable {xs : List Handle}

theorem Grows.hasPatterns (h : d.Grows d') (has : d.HasPatterns xs) : d'.HasPatterns xs := by
  intro x mem
  obtain ⟨p, found⟩ := Option.isSome_iff_exists.1 (has x mem)
  exact Option.isSome_of_eq_some (h.patterns x p found)

theorem Grows.hasModes (h : d.Grows d') (has : d.HasModes xs) : d'.HasModes xs := by
  intro x mem
  obtain ⟨m, found⟩ := Option.isSome_iff_exists.1 (has x mem)
  exact Option.isSome_of_eq_some (h.modes x m found)

theorem Grows.pattern_eq (h : d.Grows d') (has : d.HasPatterns xs) :
    ∀ x ∈ xs, d.pattern x = d'.pattern x := by
  intro x mem
  obtain ⟨p, found⟩ := Option.isSome_iff_exists.1 (has x mem)
  rw [Desk.pattern, Desk.pattern, found, h.patterns x p found]

theorem Grows.mode_eq (h : d.Grows d') (has : d.HasModes xs) : ∀ x ∈ xs, d.mode x = d'.mode x := by
  intro x mem
  obtain ⟨m, found⟩ := Option.isSome_iff_exists.1 (has x mem)
  rw [Desk.mode, Desk.mode, found, h.modes x m found]

end Growing

end Desk

/-! ## Histories -/

variable {number : Handle → Nat} {calls : List Call} {d d' e : Desk}

theorem runWith_concat {call : Call} :
    runWith number d (calls ++ [call]) = some d' ↔
      ∃ m, runWith number d calls = some m ∧ m.stepWith number call = some d' := by
  rw [runWith, List.foldlM_append]
  simp [runWith, Option.bind_eq_some_iff]

/-- Every pattern and every mode is made by a call, of what is there. -/
structure Explained (number : Handle → Nat) (calls : List Call) (d : Desk) : Prop where
  pattern : ∀ x p, d.patterns x = some p → ∃ call, .pattern x call ∈ calls ∧
    d.HasPatterns call.uses ∧ p = call.value d.pattern (number x)
  mode : ∀ x m, d.modes x = some m → ∃ call, .mode x call ∈ calls ∧
    d.HasPatterns call.patterns ∧ d.HasModes call.modes ∧ m = call.value d.pattern d.mode

theorem Explained.step {call : Call} (h : Explained number calls d) (made : d.Steps number call d') :
    Explained number (calls ++ [call]) d' := by
  have grows := made.grows
  constructor
  · intro x p found
    have known : ∃ c, .pattern x c ∈ calls ++ [call] ∧ d.HasPatterns c.uses ∧
        p = c.value d.pattern (number x) := by
      rcases made.patterns_cases found with old | ⟨c, rfl, used, value⟩
      · obtain ⟨c, mem, used, value⟩ := h.pattern x p old
        exact ⟨c, List.mem_append_left _ mem, used, value⟩
      · exact ⟨c, List.mem_append_right _ List.mem_cons_self, used, value⟩
    obtain ⟨c, mem, used, rfl⟩ := known
    exact ⟨c, mem, grows.hasPatterns used, c.value_congr (grows.pattern_eq used) _⟩
  · intro x m found
    have known : ∃ c, .mode x c ∈ calls ++ [call] ∧ d.HasPatterns c.patterns ∧ d.HasModes c.modes ∧
        m = c.value d.pattern d.mode := by
      rcases made.modes_cases found with old | ⟨c, rfl, patterns, modes, value⟩
      · obtain ⟨c, mem, patterns, modes, value⟩ := h.mode x m old
        exact ⟨c, List.mem_append_left _ mem, patterns, modes, value⟩
      · exact ⟨c, List.mem_append_right _ List.mem_cons_self, patterns, modes, value⟩
    obtain ⟨c, mem, patterns, modes, rfl⟩ := known
    refine ⟨c, mem, grows.hasPatterns patterns, grows.hasModes modes, ?_⟩
    exact c.value_congr (grows.pattern_eq patterns) (grows.mode_eq modes)

theorem explained_runWith (h : runWith number .empty calls = some d) : Explained number calls d := by
  induction calls using List.reverseRecOn generalizing d with
  | nil =>
    cases h
    exact ⟨nofun, nofun⟩
  | append_singleton calls call ih =>
    obtain ⟨m, before, made⟩ := runWith_concat.1 h
    exact (ih before).step (Desk.steps_of_stepWith made)

/-- What is built under the same handle is built by the same call. -/
structure SameParts (P Q : List Call) : Prop where
  pattern : ∀ x a b, .pattern x a ∈ P → .pattern x b ∈ Q → a = b
  mode : ∀ x a b, .mode x a ∈ P → .mode x b ∈ Q → a = b

/-- What is there on both desks is the same. -/
structure Desk.Agree (d e : Desk) : Prop where
  pattern : ∀ x p q, d.patterns x = some p → e.patterns x = some q → p = q
  mode : ∀ x m n, d.modes x = some m → e.modes x = some n → m = n

section Agreeing

variable {xs : List Handle}

theorem Desk.Agree.pattern_eq (h : d.Agree e) (has : d.HasPatterns xs) (has' : e.HasPatterns xs) :
    ∀ x ∈ xs, d.pattern x = e.pattern x := by
  intro x mem
  obtain ⟨p, found⟩ := Option.isSome_iff_exists.1 (has x mem)
  obtain ⟨q, found'⟩ := Option.isSome_iff_exists.1 (has' x mem)
  rw [Desk.pattern, Desk.pattern, found, found', h.pattern x p q found found']

theorem Desk.Agree.mode_eq (h : d.Agree e) (has : d.HasModes xs) (has' : e.HasModes xs) :
    ∀ x ∈ xs, d.mode x = e.mode x := by
  intro x mem
  obtain ⟨m, found⟩ := Option.isSome_iff_exists.1 (has x mem)
  obtain ⟨n, found'⟩ := Option.isSome_iff_exists.1 (has' x mem)
  rw [Desk.mode, Desk.mode, found, found', h.mode x m n found found']

end Agreeing

/-- The order of the calls and all other calls are without effect on what is built by a call. -/
theorem agree_runWith {P Q : List Call} (same : SameParts P Q) (he : Explained number Q e)
    (part : calls ⊆ P) (h : runWith number .empty calls = some d) : d.Agree e := by
  induction calls using List.reverseRecOn generalizing d with
  | nil =>
    cases h
    exact ⟨nofun, nofun⟩
  | append_singleton calls call ih =>
    obtain ⟨before, last⟩ := List.append_subset.1 part
    have mem : call ∈ P := last List.mem_cons_self
    obtain ⟨m, run, made⟩ := runWith_concat.1 h
    have agree := ih before run
    have step := Desk.steps_of_stepWith made
    constructor
    · intro x p q found found'
      rcases step.patterns_cases found with old | ⟨c, rfl, used, rfl⟩
      · exact agree.pattern x p q old found'
      · obtain ⟨c', mem', used', rfl⟩ := he.pattern x q found'
        cases same.pattern x c c' mem mem'
        exact c.value_congr (agree.pattern_eq used used') _
    · intro x n n' found found'
      rcases step.modes_cases found with old | ⟨c, rfl, patterns, modes, rfl⟩
      · exact agree.mode x n n' old found'
      · obtain ⟨c', mem', patterns', modes', rfl⟩ := he.mode x n' found'
        cases same.mode x c c' mem mem'
        exact c.value_congr (agree.pattern_eq patterns patterns') (agree.mode_eq modes modes')

end TextMate
