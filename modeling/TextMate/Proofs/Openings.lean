import TextMate.Proofs.SelfContained

/-!
# The parentheses that open numbered groups

A scan of labelled characters gives the labels of the parentheses that it counts. With offsets as
labels these are the places where the numbered groups open; other labels follow a group to the
parenthesis that was written for it. The groups around a text have no part in this
(`openings_below_groups`), so texts can be put in a row and wrapped without a recount.
-/

set_option autoImplicit false

namespace TextMate.Regex

variable {α β : Type}

/-- The labels of the parentheses that open a numbered group, in the order of the groups. -/
def openings (k : Cursor) : List (Char × α) → List α
  | [] => []
  | x :: rest =>
    if (k.step .interval x.1).pending = .groupHead ∧ (rest.map Prod.fst).head? ≠ some '?' then
      x.2 :: openings (k.step .interval x.1) rest
    else openings (k.step .interval x.1) rest

/-- All characters of `cs` under one label. -/
def labelled (a : α) (cs : List Char) : List (Char × α) :=
  cs.map fun c => (c, a)

@[simp] theorem map_fst_labelled (a : α) (cs : List Char) : (labelled a cs).map Prod.fst = cs := by
  simp [labelled, Function.comp_def]

theorem openings_zipIdx (k : Cursor) (i : Nat) (cs : List Char) :
    openings k (cs.zipIdx i) = captureStartsFrom k i cs := by
  induction cs generalizing k i with
  | nil => rfl
  | cons c rest ih =>
    have chars : ((rest.zipIdx (i + 1)).map Prod.fst) = rest := by simp
    simp only [List.zipIdx_cons, openings, captureStartsFrom, ih, chars]

/-- Labels are only carried along. -/
theorem openings_map (g : α → β) (k : Cursor) (w : List (Char × α)) :
    openings k (w.map fun x => (x.1, g x.2)) = (openings k w).map g := by
  induction w generalizing k with
  | nil => rfl
  | cons x rest ih =>
    have chars : (rest.map fun x => (x.1, g x.2)).map Prod.fst = rest.map Prod.fst := by simp
    simp only [List.map_cons, openings, ih, chars]
    split <;> rfl

/-- All groups of a text under one label. -/
theorem openings_labelled (k : Cursor) (cs : List Char) (a : α) :
    openings k (labelled a cs) = List.replicate (captureStartsFrom k 0 cs).length a := by
  have same : labelled a cs = (cs.zipIdx 0).map fun x => (x.1, a) := by
    apply List.ext_getElem
    · simp [labelled]
    · intro n h h'
      simp [labelled]
  rw [same, openings_map (fun _ => a), openings_zipIdx, List.map_const']

/-- Only a parenthesis opens a group. -/
theorem Cursor.eq_of_groupHead {braces : Braces} {k : Cursor} {c : Char}
    (h : (k.step braces c).pending = .groupHead) : c = '(' := by
  rcases step_cases braces k c with alone | ⟨pending, other, claimed⟩
  · rw [alone] at h
    unfold read readInSet readOutsideSet at h
    grind
  · rw [claimed] at h
    exact absurd h other

theorem mem_of_mem_openings {k : Cursor} {w : List (Char × α)} {a : α} (h : a ∈ openings k w) :
    ('(', a) ∈ w := by
  induction w generalizing k with
  | nil => cases h
  | cons x rest ih =>
    rw [openings] at h
    split at h
    · next counted =>
      rcases List.mem_cons.1 h with rfl | h
      · rw [← Cursor.eq_of_groupHead counted.1]
        exact List.mem_cons_self
      · exact List.mem_cons_of_mem _ (ih h)
    · exact List.mem_cons_of_mem _ (ih h)

/-- The groups open at the offsets of their parentheses. -/
theorem getElem?_openings {w : List (Char × α)} {n : Nat} {a : α}
    (h : (openings .top w)[n]? = some a) :
    ∃ i, (captureStartsFrom .top 0 (w.map Prod.fst))[n]? = some i ∧ w[i]? = some ('(', a) := by
  -- Each character with its label and its offset.
  let v := w.zipIdx.map fun x => (x.1.1, (x.1.2, x.2))
  have labels : openings .top w = (openings .top v).map Prod.fst := by
    rw [← openings_map]
    congr 1
    simp only [v, List.map_map, Function.comp_def]
    exact (List.zipIdx_map_fst 0 w).symm
  have offsets : captureStartsFrom .top 0 (w.map Prod.fst) = (openings .top v).map Prod.snd := by
    rw [← openings_map, ← openings_zipIdx, List.zipIdx_map]
    simp only [v, List.map_map, Function.comp_def]
    rfl
  rw [labels, List.getElem?_map, Option.map_eq_some_iff] at h
  obtain ⟨⟨b, i⟩, at', rfl⟩ := h
  refine ⟨i, by rw [offsets, List.getElem?_map, at']; rfl, ?_⟩
  have member := mem_of_mem_openings (List.mem_of_getElem? at')
  simp only [v, List.mem_map, Prod.mk.injEq, Prod.exists] at member
  obtain ⟨c, b', j, mem, rfl, rfl, rfl⟩ := member
  exact List.mem_zipIdx_iff_getElem?.1 mem

/-- The number of groups does not depend on the labels. -/
theorem length_openings (k : Cursor) (w : List (Char × α)) (i : Nat) :
    (openings k w).length = (captureStartsFrom k i (w.map Prod.fst)).length := by
  have plain : w.map (fun x => (x.1, ())) =
      ((w.map Prod.fst).zipIdx i).map fun x => (x.1, ()) := by
    apply List.ext_getElem
    · simp
    · intro n h h'
      simp
  have left := congrArg List.length (openings_map (fun _ => ()) k w)
  have right := congrArg List.length (openings_map (fun _ => ()) k ((w.map Prod.fst).zipIdx i))
  rw [List.length_map] at left right
  rw [← openings_zipIdx, ← left, plain, right]

theorem openings_cons (k : Cursor) (x : Char × α) (rest : List (Char × α)) :
    openings k (x :: rest) =
      if (k.step .interval x.1).pending = .groupHead ∧ (rest.map Prod.fst).head? ≠ some '?' then
        x.2 :: openings (k.step .interval x.1) rest
      else openings (k.step .interval x.1) rest := rfl

/-- Two texts in a row, unless a `?` takes away the number of a group at the seam. -/
theorem openings_append {k : Cursor} {v w : List (Char × α)}
    (h : (k.after .interval (v.map Prod.fst)).pending = .groupHead →
      (w.map Prod.fst).head? ≠ some '?') :
    openings k (v ++ w) = openings k v ++ openings (k.after .interval (v.map Prod.fst)) w := by
  induction v generalizing k with
  | nil => rfl
  | cons x rest ih =>
    have tail := ih (k := k.step .interval x.1) h
    cases rest with
    | nil =>
      change (k.step .interval x.1).pending = .groupHead → _ at h
      by_cases head : (k.step .interval x.1).pending = .groupHead
      · rw [List.cons_append, List.nil_append, openings_cons, if_pos ⟨head, h head⟩]
        simp [openings, head]
      · simp [openings_cons, openings, head]
    | cons y rest =>
      rw [List.cons_append, openings_cons, openings_cons k x (y :: rest), tail]
      simp only [List.cons_append, List.map_cons, List.head?_cons, Cursor.after_cons]
      split <;> rfl

/-- One step below more open groups. A `)` may close one of them if the text has none open. -/
theorem Cursor.read_below_groups (nest : List Bracket) (n : Nat) (c : Char) :
    ∃ m, read .interval (nest ++ List.replicate n .group) c =
      (read .interval nest c).within (List.replicate m .group) := by
  by_cases stray : nest = [] ∧ c = ')'
  · obtain ⟨rfl, rfl⟩ := stray
    refine ⟨n - 1, ?_⟩
    cases n <;> simp [read, readOutsideSet, within, List.replicate_succ]
  · exact ⟨n, read_within (k := ⟨nest, .nothing⟩) (fun hn hc => stray ⟨hn, hc⟩) (head?_groups n)⟩

theorem Cursor.step_below_groups (k : Cursor) (n : Nat) (c : Char) :
    ∃ m, (k.within (List.replicate n .group)).step .interval c =
      (k.step .interval c).within (List.replicate m .group) := by
  obtain ⟨nest, pending⟩ := k
  obtain ⟨m, below⟩ := read_below_groups nest n c
  cases pending with
  | nothing => exact ⟨m, below⟩
  | groupHead => exact ⟨m, below⟩
  | escape => exact ⟨n, rfl⟩
  | interval =>
    refine ⟨n, ?_⟩
    simp only [within, step]
    split <;> rfl
  | setHead =>
    by_cases literal : c = '^' ∨ c = ']'
    · refine ⟨n, ?_⟩
      rcases literal with rfl | rfl <;> rfl
    · refine ⟨m, ?_⟩
      simp only [not_or] at literal
      simpa only [within, step, if_neg literal.1, if_neg literal.2] using below
  | negatedSetHead =>
    by_cases literal : c = ']'
    · exact ⟨n, by subst literal; rfl⟩
    · exact ⟨m, by simpa only [within, step, if_neg literal] using below⟩

/-- Open groups around a text, whatever it closes of them, open no groups of their own. -/
theorem openings_below_groups (k : Cursor) (n : Nat) (w : List (Char × α)) :
    openings (k.within (List.replicate n .group)) w = openings k w := by
  induction w generalizing k n with
  | nil => rfl
  | cons x rest ih =>
    obtain ⟨m, step⟩ := k.step_below_groups n x.1
    simp only [openings, step, ih]
    rfl

/-- A `)` opens nothing. -/
theorem openings_close (k : Cursor) (w : List (Char × α)) (a : α) :
    openings k (w ++ [(')', a)]) = openings k w := by
  rw [openings_append (by simp)]
  have closing : ∀ j : Cursor, (j.step .interval ')').pending ≠ .groupHead := by
    rintro ⟨nest, pending⟩
    cases pending <;> simp [Cursor.step, Cursor.read, Cursor.readInSet, Cursor.readOutsideSet]
    all_goals split <;> simp
  simp [openings, closing]

/-- A numbered group opens one group more than its body, in front of the others. -/
theorem openings_numbered (w : List (Char × α)) (a b : α)
    (h : (w.map Prod.fst).head? ≠ some '?') :
    openings .top (('(', a) :: (w ++ [(')', b)])) = a :: openings .top w := by
  have head : ((w ++ [(')', b)]).map Prod.fst).head? ≠ some '?' := by
    cases w with
    | nil => simp
    | cons x rest => exact h
  have body : openings ⟨[.group], .groupHead⟩ (w ++ [(')', b)]) = openings .top w := by
    have seam : openings ⟨[.group], .groupHead⟩ (w ++ [(')', b)]) =
        openings (Cursor.top.within (List.replicate 1 .group)) (w ++ [(')', b)]) := by
      cases w <;> rfl
    rw [seam, openings_below_groups, openings_close]
  rw [openings, show Cursor.top.step .interval '(' = ⟨[.group], .groupHead⟩ from rfl,
    if_pos ⟨rfl, head⟩, body]

/-- Any other group opens no group but those of its body. -/
theorem openings_unnumbered {o : List Char} (ho : o ∈ groupOpenings) (hn : o ≠ ['('])
    (w : List (Char × α)) (a b : α) :
    openings .top (labelled a o ++ (w ++ [(')', b)])) = openings .top w := by
  have head : Cursor.top.after .interval o = Cursor.inside ∧ openings .top (labelled a o) = [] := by
    simp only [groupOpenings, List.mem_cons, List.not_mem_nil, or_false] at ho
    rcases ho with rfl | rfl | rfl | rfl | rfl | rfl
    · exact absurd rfl hn
    all_goals exact ⟨rfl, rfl⟩
  have seam : (Cursor.top.after .interval ((labelled a o).map Prod.fst)).pending ≠ .groupHead := by
    rw [map_fst_labelled, head.1]
    decide
  rw [openings_append fun pending => absurd pending seam, map_fst_labelled, head.1, head.2,
    List.nil_append, show Cursor.inside = Cursor.top.within (List.replicate 1 .group) from rfl,
    openings_below_groups, openings_close]

/-- A self-contained text in front of another one keeps its groups and adds none. -/
theorem openings_append_of_selfContained {v : List (Char × α)} (h : SelfContained (v.map Prod.fst))
    (w : List (Char × α)) : openings .top (v ++ w) = openings .top v ++ openings .top w := by
  have seam : (Cursor.top.after .interval (v.map Prod.fst)).pending ≠ .groupHead := by
    rw [h.closed]
    decide
  rw [openings_append fun pending => absurd pending seam, h.closed]

/-- A quantifier opens no group. -/
theorem openings_quantifier {q : List Char} (h : IsQuantifier q) (a : α) :
    openings .top (labelled a q) = [] := by
  rcases h with h | ⟨body, rfl, hbody⟩
  · simp only [List.mem_cons, List.not_mem_nil, or_false] at h
    rcases h with rfl | rfl | rfl <;> rfl
  · have inner : ∀ cs : List Char, (∀ c ∈ cs, isIntervalChar c = true) →
        openings ⟨[], .interval⟩ (labelled a (cs ++ ['}'])) = [] := by
      intro cs h
      induction cs with
      | nil => rfl
      | cons c rest ih =>
        have stay : Cursor.step .interval ⟨[], .interval⟩ c = ⟨[], .interval⟩ :=
          Cursor.step_interval (h c (by simp))
        rw [List.cons_append, labelled, List.map_cons, openings]
        simp only [stay]
        exact ih fun d hd => h d (by simp [hd])
    exact inner body hbody

/-- The number of numbered groups of a text given by its characters. -/
def captureCountOf (cs : List Char) : Nat :=
  (captureStartsFrom .top 0 cs).length

theorem captureCountOf_eq (w : List (Char × α)) :
    captureCountOf (w.map Prod.fst) = (openings .top w).length :=
  (length_openings .top w 0).symm

theorem captureCountOf_append {as : List Char} (h : SelfContained as) (bs : List Char) :
    captureCountOf (as ++ bs) = captureCountOf as + captureCountOf bs := by
  have row := captureCountOf_eq (labelled () as ++ labelled () bs)
  rw [openings_append_of_selfContained (by simpa using h), List.length_append, ← captureCountOf_eq,
    ← captureCountOf_eq] at row
  simpa using row

theorem captureCountOf_numbered {cs : List Char} (h : cs.head? ≠ some '?') :
    captureCountOf (['('] ++ (cs ++ [')'])) = captureCountOf cs + 1 := by
  have group := captureCountOf_eq (('(', ()) :: (labelled () cs ++ [(')', ())]))
  rw [openings_numbered _ _ _ (by simpa using h), List.length_cons, ← captureCountOf_eq] at group
  simpa using group

theorem captureCountOf_unnumbered {o : List Char} (ho : o ∈ groupOpenings) (hn : o ≠ ['('])
    (cs : List Char) : captureCountOf (o ++ (cs ++ [')'])) = captureCountOf cs := by
  have group := captureCountOf_eq (labelled () o ++ (labelled () cs ++ [(')', ())]))
  rw [openings_unnumbered ho hn, ← captureCountOf_eq] at group
  simpa using group

theorem captureCountOf_quantifier {q : List Char} (h : IsQuantifier q) : captureCountOf q = 0 := by
  have none := captureCountOf_eq (labelled () q)
  rw [openings_quantifier h, map_fst_labelled] at none
  exact none

end TextMate.Regex
