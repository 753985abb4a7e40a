import TextMate.Proofs.Scripts

/-!
# Independence of the order of construction

The counter gives every capture and every highlight of a history a serial number of its own, as long
as there are fewer than it can count. So what a history leaves behind is what is left behind without a
counter, renamed (`run_eq`), and no finished grammar depends on how the numbers were given out
(`compile_independent`).
-/

set_option autoImplicit false

namespace TextMate

/-- The desk with other serial numbers. -/
def Desk.rename (ρ : Nat → Nat) (d : Desk) : Desk where
  patterns x := (d.patterns x).map (Pattern.rename ρ)
  modes x := (d.modes x).map (Mode.rename ρ)
  grammars x := (d.grammars x).map (Grammar.rename ρ)

section Renamed

variable (ρ : Nat → Nat) (d : Desk)

theorem Desk.rename_patterns (x : Handle) :
    (d.rename ρ).patterns x = (d.patterns x).map (Pattern.rename ρ) := rfl

theorem Desk.rename_modes (x : Handle) :
    (d.rename ρ).modes x = (d.modes x).map (Mode.rename ρ) := rfl

theorem Desk.rename_grammars (x : Handle) :
    (d.rename ρ).grammars x = (d.grammars x).map (Grammar.rename ρ) := rfl

theorem Desk.pattern_rename : (d.rename ρ).pattern = fun x => (d.pattern x).rename ρ := by
  funext x
  rw [Desk.pattern, Desk.pattern, rename_patterns]
  cases d.patterns x <;> rfl

theorem Desk.mode_rename : (d.rename ρ).mode = fun x => (d.mode x).rename ρ := by
  funext x
  rw [Desk.mode, Desk.mode, rename_modes]
  cases d.modes x <;> rfl

theorem Desk.hasPatterns_rename (xs : List Handle) :
    (d.rename ρ).HasPatterns xs ↔ d.HasPatterns xs := by
  simp only [HasPatterns, rename_patterns, Option.isSome_map]

theorem Desk.hasModes_rename (xs : List Handle) : (d.rename ρ).HasModes xs ↔ d.HasModes xs := by
  simp only [HasModes, rename_modes, Option.isSome_map]

theorem Desk.assign_map {α β : Type} (f : α → β) (m : Handle → Option α) (x : Handle) (a : α) :
    (fun y => (assign m x a y).map f) = assign (fun y => (m y).map f) x (f a) := by
  funext y
  unfold assign
  split <;> rfl

theorem NameMap.map_insert {α β : Type} (f : α → β) (m : NameMap α) (name : String) (a : α) :
    (m.insert name a).map f = (m.map f).insert name (f a) := by
  refine NameMap.ext_get? fun other => ?_
  rw [get?_map, get?_insert, get?_insert, get?_map]
  split <;> rfl

/-- What is done to a grammar can be done after the renaming as well. -/
theorem Desk.change_rename {f f' : Grammar → Grammar}
    (h : ∀ g, (f g).rename ρ = f' (g.rename ρ)) (x : Handle) (n m : Nat) :
    (((d.rename ρ).change x f').map fun d => (d, n)).map Prod.fst =
      (((d.change x f).map fun d => (d, m)).map Prod.fst).map (rename ρ) := by
  unfold change
  rw [rename_grammars]
  cases d.grammars x with
  | none => rfl
  | some g =>
    refine congrArg some ?_
    simp only [rename, assign_map, h]

/-- A call makes the same of renamed things, with the renamed number. -/
theorem Desk.stepWith_rename (call : Call) :
    (d.rename ρ).stepWith ρ call = (d.stepWith id call).map (rename ρ) := by
  unfold stepWith
  cases call with
  | pattern x call =>
    simp only [step, hasPatterns_rename, pattern_rename, rename_patterns, Option.isNone_map]
    split
    · have value := call.value_rename ρ d.pattern x
      unfold PatternCall.value at value
      simp only [Option.map_some, rename, assign_map, Call.handle, id, value]
    · rfl
  | mode x call =>
    simp only [step, hasPatterns_rename, hasModes_rename, pattern_rename, mode_rename, rename_modes,
      Option.isNone_map]
    split
    · simp only [Option.map_some, rename, assign_map, call.value_rename]
    · rfl
  | grammar x name =>
    simp only [step, rename_grammars, Option.isNone_map]
    split
    · simp only [Option.map_some, rename, assign_map]
      rfl
    · rfl
  | scopeName x name =>
    exact d.change_rename ρ (f := fun g => g.withScopeName name) (fun _ => rfl) x _ _
  | fileTypes x extensions =>
    exact d.change_rename ρ (f := fun g => g.withFileTypes extensions) (fun _ => rfl) x _ _
  | patterns x modes =>
    simp only [step, hasModes_rename, mode_rename]
    split
    · refine d.change_rename ρ (fun g => ?_) x _ _
      simp [Grammar.rename, Grammar.withPatterns]
    · rfl
  | rule x name entry =>
    simp only [step, hasModes_rename, mode_rename]
    split
    · refine d.change_rename ρ (fun g => ?_) x _ _
      simp only [Grammar.rename, Grammar.withRule, NameMap.map_insert, entry.value_rename]
    · rfl

/-- A history without a counter makes the same, renamed. -/
theorem runWith_rename (calls : List Call) :
    runWith ρ (d.rename ρ) calls = (runWith id d calls).map (Desk.rename ρ) := by
  induction calls generalizing d with
  | nil => rfl
  | cons call calls ih =>
    rw [runWith, runWith, List.foldlM_cons, List.foldlM_cons, Desk.stepWith_rename]
    cases d.stepWith id call with
    | none => rfl
    | some m => exact ih m

end Renamed

/-! ## The counter -/

/-- The number that the counter gives to each capture and each highlight of a history. No other
handle gets one of these. -/
def serialOf (start : UInt32) (calls : List Call) (x : Handle) : Nat :=
  let place := (numbered calls).idxOf x
  if place < (numbered calls).length then (start.toNat + place) % UInt32.size else UInt32.size + x

section Counter

variable {start : UInt32} {calls : List Call} {d d' : Desk} {x : Handle}

/-- With fewer captures and highlights than the counter can count, no number is given twice. -/
theorem serialOf_injective (few : (numbered calls).length < UInt32.size) {x y : Handle}
    (same : serialOf start calls x = serialOf start calls y) : x = y := by
  simp only [serialOf, UInt32.size] at same
  unfold UInt32.size at few
  split at same
  · next ix =>
    split at same
    · next iy =>
      have place : (numbered calls).idxOf x = (numbered calls).idxOf y := by omega
      exact (List.idxOf_inj (List.idxOf_lt_length_iff.1 ix)).1 place
    · omega
  · split at same
    · omega
    · exact Nat.add_left_cancel same

theorem Desk.map_change {f : Grammar → Grammar} (m n : Nat) :
    (d.change x f).map (fun d => (d, n)) =
      (((d.change x f).map fun d => (d, m)).map Prod.fst).map fun d => (d, n) := by
  cases d.change x f <;> rfl

/-- Only a new capture or highlight depends on the numbers, and only on its own. -/
theorem Desk.step_eq {n : Nat} {number : Handle → Nat} {call : Call}
    (h : call.takesSerial = true → d.patterns call.handle = none → number call.handle = n) :
    d.step n call = (d.stepWith number call).map fun d' =>
      (d', if call.takesSerial then n + 1 else n) := by
  unfold stepWith
  cases call with
  | pattern x c =>
    simp only [step]
    split
    · next fresh =>
      have value : ((c.build d.pattern).run n).1 = ((c.build d.pattern).run (number x)).1 := by
        cases takes : c.takesSerial with
        | true =>
          have own : number x = n := h takes (Option.isNone_iff_eq_none.1 fresh.1)
          rw [own]
        | false => exact c.value_of_not_takesSerial takes n (number x)
      rw [value, c.build_next]
      rfl
    · rfl
  | mode x c =>
    simp only [step]
    split <;> rfl
  | grammar x name =>
    simp only [step]
    split <;> rfl
  | scopeName x name => exact map_change _ n
  | fileTypes x extensions => exact map_change _ n
  | patterns x modes =>
    simp only [step]
    split
    · exact map_change _ n
    · rfl
  | rule x name entry =>
    simp only [step]
    split
    · exact map_change _ n
    · rfl

theorem numbered_append (P Q : List Call) : numbered (P ++ Q) = numbered P ++ numbered Q := by
  rw [numbered, List.filter_append, List.map_append]
  rfl

theorem numbered_cons (call : Call) (calls : List Call) :
    numbered (call :: calls) =
      if call.takesSerial then call.handle :: numbered calls else numbered calls := by
  unfold numbered
  rw [List.filter_cons]
  split <;> rfl

/-- The captures and highlights of a history are there afterwards. -/
theorem isSome_of_mem_numbered {number : Handle → Nat} {before : List Call} {call : Call}
    (h : ∀ x ∈ numbered before, (d.patterns x).isSome) (made : d.Steps number call d') :
    ∀ x ∈ numbered (before ++ [call]), (d'.patterns x).isSome := by
  intro x mem
  rw [numbered_append] at mem
  rcases List.mem_append.1 mem with old | new
  · obtain ⟨p, found⟩ := Option.isSome_iff_exists.1 (h x old)
    exact Option.isSome_of_eq_some (made.grows.patterns x p found)
  · obtain ⟨c, kept, rfl⟩ := List.mem_map.1 new
    obtain ⟨last, takes⟩ := List.mem_filter.1 kept
    cases List.mem_singleton.1 last
    cases made with
    | @pattern x c fresh used => simp [Desk.assign, Call.handle]
    | _ => cases takes

/-- A new capture or highlight has the number that comes after those before it. -/
theorem serialOf_of_new {before : List Call} {call : Call} (takes : call.takesSerial = true)
    (new : call.handle ∉ numbered before) :
    serialOf start (before ++ call :: calls) call.handle =
      (start.toNat + (numbered before).length) % UInt32.size := by
  have all : numbered (before ++ call :: calls) =
      numbered before ++ call.handle :: numbered calls := by
    rw [numbered_append, numbered_cons, if_pos takes]
  have place : (numbered (before ++ call :: calls)).idxOf call.handle = (numbered before).length := by
    rw [all, List.idxOf_append_of_notMem new, List.idxOf_cons_self, Nat.add_zero]
  have there : (numbered before).length < (numbered (before ++ call :: calls)).length := by
    simp [all]
  simp only [serialOf, place, if_pos there]

/-- The counter counts the captures and the highlights, and goes round. -/
theorem counter_concat {before : List Call} {next : UInt32} (call : Call)
    (counted : next.toNat = (start.toNat + (numbered before).length) % UInt32.size) :
    (UInt32.ofNat (if call.takesSerial then next.toNat + 1 else next.toNat)).toNat =
      (start.toNat + (numbered (before ++ [call])).length) % UInt32.size := by
  unfold UInt32.size at *
  rw [UInt32.toNat_ofNat', numbered_append, numbered_cons, List.length_append]
  split
  · have one : (call.handle :: numbered []).length = 1 := rfl
    omega
  · have none : (numbered []).length = 0 := rfl
    omega

/-- A history with a counter is one where the numbers are given by the counter. -/
theorem run_eq_runWith {before calls : List Call} {next : UInt32}
    (h : ∀ x ∈ numbered before, (d.patterns x).isSome)
    (counted : next.toNat = (start.toNat + (numbered before).length) % UInt32.size) :
    run next d calls = runWith (serialOf start (before ++ calls)) d calls := by
  induction calls generalizing before next d with
  | nil => rfl
  | cons call calls ih =>
    have own : call.takesSerial = true → d.patterns call.handle = none →
        serialOf start (before ++ call :: calls) call.handle = next.toNat := by
      intro takes fresh
      have new : call.handle ∉ numbered before := by
        intro mem
        have there := h _ mem
        rw [fresh] at there
        cases there
      rw [serialOf_of_new takes new, counted]
    rw [run, Desk.step_eq own, runWith, List.foldlM_cons]
    cases made : d.stepWith (serialOf start (before ++ call :: calls)) call with
    | none => rfl
    | some d' =>
      have later := isSome_of_mem_numbered h (Desk.steps_of_stepWith made)
      have rest := ih later (counter_concat call counted)
      rwa [List.append_assoc] at rest

/-- What a history leaves behind is what it leaves behind without a counter, renamed. -/
theorem run_eq (h : run start .empty calls = some d) :
    ∃ m, runWith id .empty calls = some m ∧ d = m.rename (serialOf start calls) := by
  have bound : start.toNat < UInt32.size := start.toNat_lt
  have counted : start.toNat = (start.toNat + (numbered []).length) % UInt32.size :=
    (Nat.mod_eq_of_lt bound).symm
  have given : run start .empty calls = runWith (serialOf start ([] ++ calls)) .empty calls :=
    run_eq_runWith nofun counted
  rw [h] at given
  have renamed := runWith_rename (serialOf start calls) .empty calls
  have empty : Desk.empty.rename (serialOf start calls) = .empty := rfl
  rw [empty] at renamed
  obtain ⟨m, made, same⟩ := Option.map_eq_some_iff.1 (renamed.symm.trans given.symm)
  exact ⟨m, made, same.symm⟩

end Counter

/-- A grammar of a history compiles like the one that the same calls make without a counter. -/
theorem compile_of_run {start : UInt32} {calls : List Call} {d : Desk} {x : Handle} {g : Grammar}
    (h : run start .empty calls = some d) (few : (numbered calls).length < UInt32.size)
    (found : d.grammars x = some g) :
    ∃ m g', runWith id .empty calls = some m ∧ m.grammars x = some g' ∧ g.compile = g'.compile := by
  obtain ⟨m, made, rfl⟩ := run_eq h
  obtain ⟨g', found', rfl⟩ := Option.map_eq_some_iff.1 found
  refine ⟨m, g', made, found', grammar_compile_rename ?_⟩
  intro a b _ _ same
  exact serialOf_injective few same

/-- The result of compiling depends neither on the serial numbers of captures nor on the order in which
parts are built. A grammar whose serial numbers are renamed, different ones to different ones, compiles
to the same finished grammar or fails with the same error. The grammars of two histories have the same
result if their scripts are alike and whatever has the same handle in both is built by the same call:
the order of the calls, and all other calls, are without effect. -/
theorem compile_independent :
    (∀ (g : Grammar) (ρ : Nat → Nat), Set.InjOn ρ g.serials → (g.rename ρ).compile = g.compile) ∧
      ∀ (P Q : List Call) (start start' : UInt32) (d e : Desk) (x y : Handle) (g g' : Grammar),
        run start .empty P = some d → run start' .empty Q = some e →
        (numbered P).length < UInt32.size → (numbered Q).length < UInt32.size →
        SameParts P Q → (Script.of x P).Alike (Script.of y Q) →
        d.grammars x = some g → e.grammars y = some g' → g.compile = g'.compile := by
  refine ⟨fun g ρ apart => grammar_compile_rename apart, ?_⟩
  intro P Q start start' d e x y g g' runP runQ fewP fewQ parts alike foundP foundQ
  obtain ⟨m, h, madeP, inP, sameP⟩ := compile_of_run runP fewP foundP
  obtain ⟨n, k, madeQ, inQ, sameQ⟩ := compile_of_run runQ fewQ foundQ
  have agree : m.Agree n := agree_runWith parts (explained_runWith madeQ) (List.Subset.refl P) madeP
  have contents : Contents m (Script.of x P) h := by
    have described := describes_runWith madeP x
    rwa [inP] at described
  have contents' : Contents n (Script.of y Q) k := by
    have described := describes_runWith madeQ y
    rwa [inQ] at described
  rw [sameP, sameQ, eq_of_contents agree alike contents contents']

/-- A grammar of one captured word. -/
def capturedWord (serial : Nat) : Grammar :=
  let word := Mode.single (.capture (.leaf "a") "word" serial) none [("word", .scope ⟨"keyword"⟩)] []
  ((Grammar.new "Toy").withScopeName "source.toy").withRule "words" (.one word) |>.withPattern word

/-- Builds the grammar and nothing else. -/
def capturedWordAlone : List Call :=
  [.pattern 0 (.leaf "a"), .pattern 1 (.capture 0 "word"),
   .mode 0 (.single 1 none [("word", .scope ⟨"keyword"⟩)] []),
   .grammar 0 "Toy", .scopeName 0 "source.toy", .patterns 0 [0], .rule 0 "words" (.one 0)]

/-- Builds the grammar in another order, among other things. -/
def capturedWordAmongOthers : List Call :=
  [.grammar 5 "Toy", .scopeName 5 "source.old", .pattern 0 (.leaf "a"), .grammar 4 "Other",
   .pattern 7 (.tag 0 [⟨"keyword"⟩]), .pattern 1 (.capture 0 "word"),
   .rule 5 "words" (.several []), .mode 0 (.single 1 none [("word", .scope ⟨"keyword"⟩)] []),
   .mode 1 (.span 1 7 none none [] [] [0] true), .patterns 4 [1], .rule 5 "words" (.one 0),
   .patterns 5 [0], .scopeName 5 "source.toy"]

theorem compile_independent_capturedWord :
    ∃ d e : Desk,
      run 0 .empty capturedWordAlone = some d ∧ run 7 .empty capturedWordAmongOthers = some e ∧
      d.grammars 0 = some (capturedWord 0) ∧ e.grammars 5 = some (capturedWord 8) ∧
      SameParts capturedWordAlone capturedWordAmongOthers ∧
      (Script.of 0 capturedWordAlone).Alike (Script.of 5 capturedWordAmongOthers) ∧
      (capturedWord 0).compile = (capturedWord 8).compile ∧
      Set.InjOn (· + 3) (capturedWord 8).serials ∧ (capturedWord 8).rename (· + 3) = capturedWord 11 ∧
      (capturedWord 11).compile = (capturedWord 8).compile := by
  have alone : run 0 .empty capturedWordAlone =
      some ((run 0 .empty capturedWordAlone).get rfl) := (Option.some_get _).symm
  have among : run 7 .empty capturedWordAmongOthers =
      some ((run 7 .empty capturedWordAmongOthers).get rfl) := (Option.some_get _).symm
  have same : SameParts capturedWordAlone capturedWordAmongOthers := by
    constructor
    · intro x a b ha hb
      simp only [capturedWordAlone, List.mem_cons] at ha
      simp only [capturedWordAmongOthers, List.mem_cons] at hb
      grind
    · intro x a b ha hb
      simp only [capturedWordAlone, List.mem_cons] at ha
      simp only [capturedWordAmongOthers, List.mem_cons] at hb
      grind
  have alike : (Script.of 0 capturedWordAlone).Alike (Script.of 5 capturedWordAmongOthers) :=
    ⟨rfl, rfl, rfl, rfl, fun name => rfl⟩
  have apart : Set.InjOn (· + 3) (capturedWord 8).serials :=
    fun _ _ _ _ => Nat.add_right_cancel
  exact ⟨_, _, alone, among, rfl, rfl, same, alike,
    compile_independent.2 _ _ 0 7 _ _ 0 5 _ _ alone among (by decide) (by decide) same alike rfl rfl,
    apart, rfl, compile_independent.1 _ _ apart⟩

end TextMate
