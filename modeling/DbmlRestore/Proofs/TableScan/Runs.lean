import DbmlRestore.Proofs.TableScan

/-!
# Runs of a scan

A scan is told which tables are entered and what braces the lines have, and nothing else. What it
has kept in mind after any steps is known from the steps:

* the depth is what they opened less what they closed (`run_depth`);
* the table is the last one that was entered, unless a later line closed a brace and brought the
  depth to zero (`run_table?_eq_some_iff`);
* its body is the place if, besides, a later line left a brace open (`run_place_eq_body_iff`).

A place is one value, and so there is no table exactly outside of the tables. A scan could keep the
phase and the table apart, each with a rule of its own for what a line does to it (`Parts`). It
would come to the same (`parts_run`).

The steps may come in every order: braces may be closed too often, and tables entered inside of
others.
-/

namespace DbmlRestore

namespace TableScan

/-! ## Phases -/

/-- A place without the name of the table. -/
inductive Phase where
  | idle
  | header
  | body
deriving Repr, DecidableEq

/-- The phase of a scan. -/
def phase (s : TableScan) : Phase :=
  match s.place with
  | .idle => .idle
  | .header _ => .header
  | .body _ => .body

/-- The parts of a scan that keeps its table apart from its phase. -/
structure Parts where
  /-- Whether the scan is in a table, and in its body. -/
  phase : Phase
  /-- Opening less closing braces so far. -/
  depth : Int
  /-- The table. -/
  table : Option Text
deriving Repr, DecidableEq

namespace Parts

/-- In no table, at depth zero. -/
def start : Parts := ⟨.idle, 0, none⟩

/-- The parts after one step. Of the two rules for a line neither may apply: at depth zero without a
    closing brace, or below it, a scan that is in a table stays as it is. -/
def apply (s : Parts) : Step → Parts
  | .enter table => { s with phase := .header, table := some table }
  | .finishLine opens closes =>
    let depth := s.depth + opens - closes
    if s.phase = .idle then { s with depth }
    else if depth = 0 ∧ 0 < closes then ⟨.idle, depth, none⟩
    else if 0 < depth then { s with phase := .body, depth }
    else { s with depth }

/-- The parts after a sequence of steps. -/
def run (s : Parts) (steps : List Step) : Parts := steps.foldl apply s

end Parts

/-- A scan with its table apart. -/
def parts (s : TableScan) : Parts := ⟨s.phase, s.depth, s.table?⟩

/-- The scan is idle if it is in no table. -/
theorem phase_eq_idle_iff {s : TableScan} : s.phase = .idle ↔ s.table? = none := by
  obtain ⟨place, depth⟩ := s
  cases place <;> simp [phase, table?, Place.table?]

theorem phase_eq_body_iff {s : TableScan} : s.phase = .body ↔ ∃ table, s.place = .body table := by
  obtain ⟨place, depth⟩ := s
  cases place <;> simp [phase]

/-- In a table a line leaves the table, or leaves a brace open in it, or changes nothing. -/
theorem finishLine_place (s : TableScan) (o c : Nat) : (s.finishLine o c).place =
    match s.table? with
    | none => .idle
    | some table =>
      if s.depth + o - c = 0 ∧ 0 < c then .idle
      else if 0 < s.depth + o - c then .body table
      else s.place := by
  obtain ⟨place, depth⟩ := s
  cases place with
  | idle => rfl
  | header table => rfl
  | body table =>
    show (if _ then _ else _) = if _ then _ else if _ then _ else _
    rw [ite_self]

/-- A step of the scan does to phase and table, kept apart, what it does to the place. -/
theorem parts_apply (s : TableScan) (step : Step) : (s.apply step).parts = s.parts.apply step := by
  cases step with
  | enter table => rfl
  | finishLine o c =>
    have hplace := finishLine_place s o c
    show (s.finishLine o c).parts = if s.phase = _ then _ else if _ then _ else if _ then _ else _
    cases htable : s.table? with
    -- In no table, a line changes neither of the parts.
    | none =>
      rw [htable] at hplace
      rw [if_pos (phase_eq_idle_iff.2 htable), parts, parts, phase, table?, hplace,
        phase_eq_idle_iff.2 htable, htable]
      rfl
    | some table =>
      -- In a table, the depth after the line tells whether it is left, and else whether its body is
      -- open.
      have hphase : s.phase ≠ .idle := by
        rw [Ne, phase_eq_idle_iff, htable]
        exact Option.some_ne_none table
      rw [htable] at hplace
      dsimp only at hplace
      rw [if_neg hphase, parts, parts, phase, table?, hplace, finishLine_depth]
      dsimp only
      by_cases hleaves : s.depth + o - c = 0 ∧ 0 < c
      · rw [if_pos hleaves, if_pos hleaves]
        rfl
      · rw [if_neg hleaves, if_neg hleaves]
        by_cases hopen : 0 < s.depth + o - c
        · rw [if_pos hopen, if_pos hopen, htable]
          rfl
        · rw [if_neg hopen, if_neg hopen]
          rfl

/-- Phase and table go together, whether they are kept as one or apart. -/
theorem parts_run (s : TableScan) (steps : List Step) :
    (s.run steps).parts = s.parts.run steps := by
  induction steps generalizing s with
  | nil => rfl
  | cons step steps ih =>
    show ((s.apply step).run steps).parts = (s.parts.apply step).run steps
    rw [ih, parts_apply]

/-! ## Steps -/

/-- What a step adds to the depth. -/
def Step.change : Step → Int
  | .enter _ => 0
  | .finishLine opens closes => opens - closes

/-- What some steps open less what they close. -/
def depthOf (steps : List Step) : Int := (steps.map Step.change).sum

/-- Step `k` counts the braces of a line, and `p` holds of the depth after it and of the number of
    braces that it closes. -/
def CountsAt (p : Int → Nat → Prop) (steps : List Step) (k : Nat) : Prop :=
  ∃ opens closes, steps[k]? = some (.finishLine opens closes) ∧
    p (depthOf (steps.take (k + 1))) closes

/-- Step `k` is for a line that closes a brace and brings the depth to zero. -/
abbrev LeavesAt : List Step → Nat → Prop := CountsAt fun depth closes => depth = 0 ∧ 0 < closes

/-- Step `k` is for a line that leaves a brace open. -/
abbrev IsOpenAfter : List Step → Nat → Prop := CountsAt fun depth _ => 0 < depth

/-- Step `i` enters the table, no later step enters one, and none leaves it. -/
structure IsInSince (steps : List Step) (table : Text) (i : Nat) : Prop where
  entered : steps[i]? = some (.enter table)
  last : ∀ k, i < k → ∀ t, steps[k]? ≠ some (.enter t)
  stays : ∀ k, i < k → ¬ LeavesAt steps k

variable {s : TableScan} {steps : List Step} {step : Step} {table t : Text} {i k o c : Nat}

theorem depthOf_concat : depthOf (steps ++ [step]) = depthOf steps + step.change := by
  simp [depthOf]

variable {p : Int → Nat → Prop}

theorem CountsAt.lt_length (h : CountsAt p steps k) : k < steps.length := by
  obtain ⟨o, c, h, -⟩ := h
  exact (List.getElem?_eq_some_iff.1 h).1

/-- A step with others before it is the last one, or one of these. -/
theorem countsAt_concat_iff : CountsAt p (steps ++ [step]) k ↔
    CountsAt p steps k ∨
      k = steps.length ∧ ∃ o c, step = .finishLine o c ∧ p (depthOf steps + o - c) c := by
  rcases Nat.lt_trichotomy k steps.length with hlt | rfl | hgt
  · -- The step stands before the last one, and has the same steps before it.
    have htake : (steps ++ [step]).take (k + 1) = steps.take (k + 1) :=
      List.take_append_of_le_length hlt
    rw [CountsAt, List.getElem?_append_left hlt, htake, ← CountsAt, or_iff_left]
    exact fun h => Nat.ne_of_lt hlt h.1
  · -- The step is the last one, and all the others stand before it.
    have hnone : ¬ CountsAt p steps steps.length := fun h => Nat.lt_irrefl _ h.lt_length
    have htake : (steps ++ [step]).take (steps.length + 1) = steps ++ [step] :=
      List.take_of_length_le (by simp)
    rw [CountsAt, List.getElem?_concat_length, htake, depthOf_concat, or_iff_right hnone,
      and_iff_right rfl]
    refine exists_congr fun o => exists_congr fun c => ?_
    rw [Option.some_inj]
    refine and_congr_right ?_
    rintro rfl
    rw [Step.change, Int.add_sub_assoc]
  · refine iff_of_false (fun h => ?_) (not_or_intro (fun h => ?_) fun h => Nat.ne_of_gt hgt h.1)
    · have hlt := h.lt_length
      rw [List.length_append, List.length_singleton] at hlt
      omega
    · exact Nat.lt_asymm hgt h.lt_length

theorem IsInSince.lt_length (h : IsInSince steps table i) : i < steps.length :=
  (List.getElem?_eq_some_iff.1 h.entered).1

/-- A table that is entered is the one that the scan is in. -/
theorem isInSince_concat_enter_iff :
    IsInSince (steps ++ [.enter t]) table i ↔ i = steps.length ∧ table = t := by
  constructor
  · intro h
    have hi : i < steps.length + 1 := by simpa using h.lt_length
    obtain rfl : i = steps.length := by
      by_contra hne
      exact h.last steps.length (by omega) t List.getElem?_concat_length
    have hentered := h.entered
    rw [List.getElem?_concat_length, Option.some_inj] at hentered
    exact ⟨rfl, (Step.enter.inj hentered).symm⟩
  · rintro ⟨rfl, rfl⟩
    have hnone : ∀ k, steps.length < k → (steps ++ [Step.enter table])[k]? = none := fun k hk =>
      List.getElem?_eq_none (by simp; omega)
    refine ⟨List.getElem?_concat_length, fun k hk t => ?_, fun k hk hleaves => ?_⟩
    · rw [hnone k hk]
      exact (Option.some_ne_none _).symm
    · exact Nat.not_lt_of_le (List.getElem?_eq_none_iff.1 (hnone k hk)) hleaves.lt_length

/-- A line leaves the table, or the scan is in it as before. -/
theorem isInSince_concat_finishLine_iff : IsInSince (steps ++ [.finishLine o c]) table i ↔
    IsInSince steps table i ∧ ¬ (depthOf steps + o - c = 0 ∧ 0 < c) := by
  -- Finishing a line enters no table.
  have henter : ∀ (k : Nat) (t : Text), (steps ++ [Step.finishLine o c])[k]? = some (.enter t) ↔
      steps[k]? = some (.enter t) := by
    intro k t
    rcases Nat.lt_trichotomy k steps.length with hlt | rfl | hgt
    · rw [List.getElem?_append_left hlt]
    · simp
    · rw [List.getElem?_eq_none (by simp; omega), List.getElem?_eq_none (by omega)]
  constructor
  · intro h
    have hentered := (henter i table).1 h.entered
    refine ⟨⟨hentered, fun k hk t hkt => h.last k hk t ((henter k t).2 hkt), fun k hk hleaves =>
      h.stays k hk (countsAt_concat_iff.2 (.inl hleaves))⟩, fun hleaves => ?_⟩
    exact h.stays steps.length (List.getElem?_eq_some_iff.1 hentered).1
      (countsAt_concat_iff.2 (.inr ⟨rfl, o, c, rfl, hleaves⟩))
  · rintro ⟨h, hstays⟩
    refine ⟨(henter i table).2 h.entered, fun k hk t hkt => h.last k hk t ((henter k t).1 hkt),
      fun k hk hleaves => ?_⟩
    rcases countsAt_concat_iff.1 hleaves with hleaves | ⟨-, o', c', heq, hleaves⟩
    · exact h.stays k hk hleaves
    · obtain ⟨rfl, rfl⟩ := Step.finishLine.inj heq
      exact hstays hleaves

/-! ## Runs -/

theorem run_concat (s : TableScan) (steps : List Step) (step : Step) :
    s.run (steps ++ [step]) = (s.run steps).apply step := by
  simp [run]

/-- The body of a table is entered by a line that leaves a brace open, and left with the table. -/
theorem finishLine_place_eq_body_iff : (s.finishLine o c).place = .body table ↔
    (s.place = .body table ∨ s.table? = some table ∧ 0 < s.depth + o - c) ∧
      ¬ (s.depth + o - c = 0 ∧ 0 < c) := by
  have hbody : s.place = .body table → s.table? = some table := fun h => by rw [table?, h]; rfl
  rw [finishLine_place]
  cases htable : s.table? with
  | none => grind
  | some t =>
    dsimp only
    split_ifs with hleaves hopen <;> grind

/-- The depth is the sum of what the steps open less what they close. -/
theorem run_depth (s : TableScan) (steps : List Step) :
    (s.run steps).depth = s.depth + depthOf steps := by
  induction steps using List.reverseRecOn with
  | nil => exact (Int.add_zero _).symm
  | append_singleton steps step ih =>
    rw [run_concat, depthOf_concat, ← Int.add_assoc, ← ih]
    cases step with
    | enter t => exact (Int.add_zero _).symm
    | finishLine o c => exact Int.add_sub_assoc _ _ _

/-- The depth after a line that follows the steps. -/
theorem start_run_depth_add : (start.run steps).depth + o - c = depthOf steps + o - c := by
  rw [run_depth]
  exact congrArg (· + _ - _) (Int.zero_add _)

/-- The scan is in the table that was entered last, unless a later line has left it. -/
theorem run_table?_eq_some_iff :
    (start.run steps).table? = some table ↔ ∃ i, IsInSince steps table i := by
  induction steps using List.reverseRecOn with
  | nil => exact iff_of_false nofun fun ⟨_, h⟩ => nomatch h.entered
  | append_singleton steps step ih =>
    rw [run_concat]
    cases step with
    | enter t => simp [apply, isInSince_concat_enter_iff, eq_comm]
    | finishLine o c =>
      simp only [apply, isInSince_concat_finishLine_iff, exists_and_right, ← ih]
      rw [finishLine_table?, start_run_depth_add]
      split <;> simp [*]

/-- Of the lines after a step, the one that is added at the end counts as well. -/
theorem exists_isOpenAfter_concat_iff {i : Nat} (hi : i < steps.length) :
    (∃ k, i < k ∧ IsOpenAfter (steps ++ [.finishLine o c]) k) ↔
      (∃ k, i < k ∧ IsOpenAfter steps k) ∨ 0 < depthOf steps + o - c := by
  constructor
  · rintro ⟨k, hk, hopen⟩
    rcases countsAt_concat_iff.1 hopen with hopen | ⟨-, o', c', heq, hopen⟩
    · exact .inl ⟨k, hk, hopen⟩
    · obtain ⟨rfl, rfl⟩ := Step.finishLine.inj heq
      exact .inr hopen
  · rintro (⟨k, hk, hopen⟩ | hopen)
    · exact ⟨k, hk, countsAt_concat_iff.2 (.inl hopen)⟩
    · exact ⟨steps.length, hi, countsAt_concat_iff.2 (.inr ⟨rfl, o, c, rfl, hopen⟩)⟩

/-- The scan is in the body of the table once a line after the header has left a brace open. -/
theorem run_place_eq_body_iff : (start.run steps).place = .body table ↔
    ∃ i, IsInSince steps table i ∧ ∃ k, i < k ∧ IsOpenAfter steps k := by
  induction steps using List.reverseRecOn with
  | nil =>
    refine iff_of_false nofun ?_
    rintro ⟨i, hi, -⟩
    exact Nat.not_lt_zero i hi.lt_length
  | append_singleton steps step ih =>
    rw [run_concat]
    cases step with
    | enter t =>
      refine iff_of_false nofun ?_
      rintro ⟨i, hi, k, hk, hopen⟩
      -- No step follows the one that enters the table.
      obtain ⟨rfl, -⟩ := isInSince_concat_enter_iff.1 hi
      have hlt := hopen.lt_length
      rw [List.length_append, List.length_singleton] at hlt
      omega
    | finishLine o c =>
      have hopen := fun i (hi : IsInSince steps table i) =>
        exists_isOpenAfter_concat_iff (o := o) (c := c) hi.lt_length
      show ((start.run steps).finishLine o c).place = _ ↔ _
      rw [finishLine_place_eq_body_iff, start_run_depth_add, ih, run_table?_eq_some_iff]
      constructor
      · rintro ⟨⟨i, hi, hk⟩ | ⟨⟨i, hi⟩, hdepth⟩, hstays⟩
        · exact ⟨i, isInSince_concat_finishLine_iff.2 ⟨hi, hstays⟩, (hopen i hi).2 (.inl hk)⟩
        · exact ⟨i, isInSince_concat_finishLine_iff.2 ⟨hi, hstays⟩, (hopen i hi).2 (.inr hdepth)⟩
      · rintro ⟨i, hi, hk⟩
        obtain ⟨hi, hstays⟩ := isInSince_concat_finishLine_iff.1 hi
        refine ⟨?_, hstays⟩
        rcases (hopen i hi).1 hk with hk | hdepth
        · exact .inl ⟨i, hi, hk⟩
        · exact .inr ⟨⟨i, hi⟩, hdepth⟩

/-- After a line that leaves a brace open no table is in its header. -/
theorem finishLine_phase_of_depth_pos (h : 0 < (s.finishLine o c).depth) :
    (s.finishLine o c).phase = .body ∨ (s.finishLine o c).phase = .idle := by
  rw [finishLine_depth] at h
  have hstays : ¬ (s.depth + o - c = 0 ∧ 0 < c) := fun hleaves => Int.ne_of_gt h hleaves.1
  have hplace := finishLine_place s o c
  cases htable : s.table? with
  | none =>
    rw [htable] at hplace
    exact .inr (by rw [phase, hplace])
  | some table =>
    rw [htable] at hplace
    dsimp only at hplace
    rw [if_neg hstays, if_pos h] at hplace
    exact .inl (by rw [phase, hplace])

/-- A run keeps the sum of the braces, and the table that was entered last until a line closes a
    brace and brings the depth to zero. There is no table exactly in the idle phase, and the phase
    is that of a body exactly if a line after the header has left a brace open. So right after such
    a line a table is not in its header any more. -/
theorem parts_run_start (steps : List Step) :
    (start.run steps).parts = Parts.start.run steps ∧
      (start.run steps).depth = depthOf steps ∧
      ((start.run steps).phase = .idle ↔ (start.run steps).table? = none) ∧
      (∀ table, (start.run steps).table? = some table ↔ ∃ i, IsInSince steps table i) ∧
      ((start.run steps).phase = .body ↔
        ∃ table i, IsInSince steps table i ∧ ∃ k, i < k ∧ IsOpenAfter steps k) ∧
      ∀ before opens closes, steps = before ++ [.finishLine opens closes] →
        0 < (start.run steps).depth →
          (start.run steps).phase = .body ∨ (start.run steps).phase = .idle := by
  refine ⟨parts_run start steps, ?_, phase_eq_idle_iff, fun _ => run_table?_eq_some_iff, ?_, ?_⟩
  · rw [run_depth]
    exact Int.zero_add _
  · rw [phase_eq_body_iff]
    exact exists_congr fun _ => run_place_eq_body_iff
  · rintro before opens closes rfl hdepth
    rw [run_concat] at hdepth ⊢
    exact finishLine_phase_of_depth_pos hdepth

end TableScan

end DbmlRestore
