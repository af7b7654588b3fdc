import DbmlRestore.Proofs.Block.Reorder
import DbmlRestore.Proofs.Block.Spans

/-!
# What a partition keeps

The lines of the blocks of a text, one block after the other, are the lines of the text, but for
blank lines outside of the proper blocks: the first ones are left out and the others emptied. Where
the proper blocks are is said without the partition, from the depths before the lines
(`Line.IsInside`, `Line.kept`); these are the stretches of the blocks that it finds
(`Line.isInside_iff_standsAt`).

* `Partition.flatMap_lines_run`: the lines that a run keeps are in its blocks, in order;
* `Partition.run_kept`: they have the same blocks, as a line that is left out does nothing, and a
  blank line is as good as an empty one;
* `Block.partition_unlines_partition`: both for the texts of the blocks of a text.
-/

namespace DbmlRestore

namespace Line

/-! ## Lines in blocks -/

/-- Line `k` stands in a block: one starts with this line or one before it, and does not end before
    this line. -/
def IsInside (ls : List Line) (k : Nat) : Prop :=
  ∃ i ≤ k, IsStart ls i ∧ ∀ j < k, i ≤ j → ¬ IsEnd ls j

instance (ls : List Line) : DecidablePred (IsEnd ls) := fun _ =>
  inferInstanceAs (Decidable (_ ∨ _ ∨ _))

instance (ls : List Line) : DecidablePred (IsInside ls) := fun k =>
  decidable_of_iff (∃ i < k + 1, IsStart ls i ∧ ∀ j < k, i ≤ j → ¬ IsEnd ls j)
    (exists_congr fun _ => and_congr_left' Nat.lt_succ_iff)

/-- What is left of line `k`: nothing if it is blank and stands outside of the blocks. -/
def emptied (ls : List Line) (k : Nat) (l : Line) : Line :=
  if isBlankLine l ∧ ¬ IsInside ls k then [] else l

/-- The lines, with each blank one outside of the blocks emptied, and without the blank ones at
    the start. -/
def kept (ls : List Line) : List Line := (ls.mapIdx (emptied ls)).dropWhile isBlankLine

/-- Emptying a line leaves a blank line blank, and any other as it is. -/
theorem isBlankLine_emptied (ls : List Line) (k : Nat) (l : Line) :
    isBlankLine (emptied ls k l) = isBlankLine l := by
  rw [emptied]
  split
  · next h => rw [h.1]; rfl
  · rfl

/-- Nothing is left of blank lines only. -/
theorem kept_eq_nil_iff (ls : List Line) :
    kept ls = [] ↔ ∀ l ∈ ls, isBlankLine l = true := by
  rw [kept, List.dropWhile_eq_nil_iff]
  constructor
  · intro h l hl
    obtain ⟨k, hk, rfl⟩ := List.getElem_of_mem hl
    rw [← isBlankLine_emptied ls k]
    exact h _ (List.mem_mapIdx.2 ⟨k, hk, rfl⟩)
  · intro h m hm
    obtain ⟨k, hk, rfl⟩ := List.mem_mapIdx.1 hm
    rw [isBlankLine_emptied]
    exact h _ (List.getElem_mem hk)

/-- A block is open before line `k`: the line before it is in one and does not close it. -/
def IsOpenBefore (ls : List Line) (k : Nat) : Prop :=
  ∃ j, j + 1 = k ∧ IsInside ls j ∧ ¬ IsClosing ls j

/-- A line is in a block if it starts one, or one is open before it. -/
theorem isInside_iff {ls : List Line} {k : Nat} (hk : k < ls.length) :
    IsInside ls k ↔ IsStart ls k ∨ IsOpenBefore ls k := by
  constructor
  · rintro ⟨i, hi, hstart, hends⟩
    -- The block starts at `k`, or has started before and is ended by no line up to the one before.
    rcases Nat.lt_or_eq_of_le hi with hlt | rfl
    · obtain ⟨j, rfl⟩ : ∃ j, k = j + 1 := ⟨k - 1, by omega⟩
      have hij := Nat.le_of_lt_succ hlt
      have hj := hends j (Nat.lt_succ_self j) hij
      have hin : IsInside ls j := ⟨i, hij, hstart, fun m hm => hends m (Nat.lt_succ_of_lt hm)⟩
      exact .inr ⟨j, rfl, hin, mt .inl hj⟩
    · exact .inl hstart
  · intro h
    by_cases hs : IsStart ls k
    · exact ⟨k, Nat.le_refl _, hs, fun j hj hle => absurd hj (Nat.not_lt.2 hle)⟩
    · obtain ⟨j, rfl, ⟨i, hi, hstart, hends⟩, hc⟩ := h.resolve_left hs
      refine ⟨i, Nat.le_succ_of_le hi, hstart, fun m hm him => ?_⟩
      rcases Nat.lt_or_eq_of_le (Nat.le_of_lt_succ hm) with hlt | rfl
      · exact hends m hlt him
      · rintro (h | h | h)
        · exact hc h
        · exact hs h
        · exact Nat.ne_of_lt hk h

/-- The lines in blocks are those of the proper blocks of the text. -/
theorem isInside_iff_standsAt (t : Text) (k : Nat) :
    IsInside (Text.lines t) k ↔
      ∃ b ∈ Block.proper (Block.partition t), ∃ i e,
        b.StandsAt (Text.lines t) i e ∧ i ≤ k ∧ k ≤ e := by
  have hspans := Block.forall₂_standsAt t
  constructor
  · rintro ⟨i, hi, hstart, hends⟩
    have hlen : i < (Text.lines t).length := by
      obtain ⟨l, hl, _⟩ := hstart.2
      exact (List.getElem?_eq_some_iff.1 hl).1
    have hmem : i ∈ (List.range (Text.lines t).length).filter (IsStart (Text.lines t) ·) :=
      List.mem_filter.2 ⟨List.mem_range.2 hlen, decide_eq_true hstart⟩
    obtain ⟨n, hn, rfl⟩ := List.getElem_of_mem hmem
    obtain ⟨e, he⟩ := hspans.get hn (hspans.length_eq ▸ hn)
    refine ⟨_, List.get_mem _ _, _, e, he, hi, ?_⟩
    by_contra hlt
    exact hends e (Nat.lt_of_not_le hlt) he.least.1.1 he.least.1.2
  · rintro ⟨b, -, i, e, h, hi, he⟩
    refine ⟨i, hi, h.start, fun j hj hij hend => ?_⟩
    exact absurd (h.least.2 ⟨hij, hend⟩) (Nat.not_le.2 (Nat.lt_of_lt_of_le hj he))

end Line

namespace Partition

variable {p : Partition} {l : Line} {ls : List Line}

/-! ## The lines that are kept -/

/-- The lines that are kept: those in blocks as they are, and those outside of the blocks as the
    blocks that they are. -/
def kept (p : Partition) : List Line → List Line
  | [] => []
  | l :: ls =>
    (if p.Takes l then [l] else (p.alone l).flatMap (·.lines)) ++ (p.step l).2.kept ls

/-- A block is open after a line if the line is in one that it does not close. -/
theorem isSome_current_step (p : Partition) (l : Line) :
    (p.step l).2.current.isSome ↔ p.Takes l ∧ ¬ p.Closes l := by
  obtain ⟨b, hz, hb, ⟨hc, hstep⟩ | ⟨hc, hstep⟩⟩ | ⟨ho, ⟨b, hcur, ⟨hc, hstep⟩ | ⟨hc, hstep⟩⟩ |
    ⟨hcur, hstep⟩⟩ := step_cases p l <;> rw [hstep]
  · exact iff_of_true rfl ⟨.inr ⟨hz, by rw [hb]; rfl⟩, hc⟩
  · exact iff_of_false nofun fun h => h.2 hc
  · exact iff_of_true rfl ⟨.inl (by rw [hcur]; rfl), hc⟩
  · exact iff_of_false nofun fun h => h.2 hc
  · exact iff_of_false nofun fun h => not_takes_iff.2 ⟨hcur, ho⟩ h.1

/-- The lines of the blocks of a run are those that are kept. -/
theorem flatMap_lines_run (p : Partition) (ls : List Line) :
    (p.run ls).flatMap (·.lines) = p.openLines ++ p.kept ls := by
  induction ls generalizing p with
  | nil => exact (List.append_nil _).symm
  | cons l ls ih =>
    rw [run_cons, List.flatMap_append, ih, ← List.append_assoc, flatMap_lines_step, kept,
      List.append_assoc]

/-- The lines that are kept have the blocks of all. -/
theorem run_kept (p : Partition) (ls : List Line) : p.run (p.kept ls) = p.run ls := by
  induction ls generalizing p with
  | nil => rfl
  | cons l ls ih =>
    by_cases htakes : p.Takes l
    · rw [kept, if_pos htakes, List.singleton_append, run_cons, run_cons, ih]
    · obtain ⟨hcur, ho⟩ := not_takes_iff.1 htakes
      rw [kept, if_neg htakes, alone]
      by_cases hl : Text.trim l = []
      · -- A blank line is passed over as an empty one is.
        have hnil : ∀ m, Text.trim m = [] → p.step m = (p.alone m, p) := fun m hm => by
          have hquiet : Line.IsQuiet m := .inl hm
          rw [step_of_alone hcur fun _ => hquiet.opened?_eq_none, hquiet.depthChange_eq_zero, hm,
            Int.add_zero, List.isEmpty_nil, Bool.not_true, Bool.or_false, ← hcur]
        have halone : p.alone l = p.alone [] := by rw [alone, alone, hl]; rfl
        have hrest : p.run (l :: ls) = p.alone [] ++ p.run ls := by
          rw [run_cons, hnil l hl, halone]
        rw [← alone, halone, hnil l hl, hrest, ← ih]
        cases hs : p.started with
        | false =>
          have hnone : p.alone [] = [] := by rw [alone, hs]; rfl
          rw [hnone]
          rfl
        | true =>
          have hone : p.alone [] = [.other []] := by rw [alone, hs]; rfl
          rw [hone]
          show p.run ([] :: p.kept ls) = _
          rw [run_cons, hnil [] rfl, hone]
      · have hne : (!(Text.trim l).isEmpty) = true := by
          rw [Bool.not_eq_true', List.isEmpty_eq_false_iff]
          exact hl
        rw [if_pos hne]
        show p.run (l :: (p.step l).2.kept ls) = _
        rw [run_cons, run_cons, ih]

/-! ## Where the kept lines stand -/

/-- What is known before the lines that follow `pre` in `ls`. -/
structure StandsAfter (p : Partition) (ls pre : List Line) : Prop where
  depth : p.depth = Line.depthOf pre
  current : p.current.isSome ↔ Line.IsOpenBefore ls pre.length

theorem standsAfter_start (ls : List Line) : start.StandsAfter ls [] :=
  ⟨rfl, iff_of_false nofun fun ⟨_, hj, _⟩ => nomatch hj⟩

variable {pre rest : List Line}

/-- A line is taken into a block exactly where it stands inside of one. -/
theorem StandsAfter.takes_iff (h : p.StandsAfter (pre ++ l :: rest) pre) :
    p.Takes l ↔ Line.IsInside (pre ++ l :: rest) pre.length := by
  rw [Line.isInside_iff (by simp), Line.isStart_append, ← h.depth, ← Line.isSome_opened?_trim,
    ← h.current, Takes, or_comm]

/-- One more line is read: what stood after the lines so far stands after them and the line. -/
theorem StandsAfter.step (h : p.StandsAfter (pre ++ l :: rest) pre) :
    (p.step l).2.StandsAfter (pre ++ l :: rest) (pre ++ [l]) := by
  have hlen : (pre ++ [l]).length = pre.length + 1 := List.length_append
  have hclosing : Line.IsClosing (pre ++ l :: rest) pre.length ↔ p.Closes l := by
    rw [Line.isClosing_append, ← h.depth]
    rfl
  refine ⟨?_, ?_⟩
  · rw [step_depth, h.depth, Line.depthOf_append, Line.depthOf_cons, Line.depthOf_nil,
      Int.add_zero]
  · rw [isSome_current_step, h.takes_iff, ← hclosing, hlen]
    exact ⟨fun hin => ⟨_, rfl, hin⟩, fun ⟨_, hj, hin⟩ => Nat.succ.inj hj ▸ hin⟩

/-- After a line that is taken there is a block. -/
theorem started_step (htakes : p.Takes l) :
    (p.step l).2.started = true ∨ (p.step l).2.current.isSome := by
  by_cases hc : p.Closes l
  · left
    obtain ⟨b, hz, hb, ⟨hn, hstep⟩ | ⟨_, hstep⟩⟩ | ⟨ho, ⟨b, hcur, ⟨hn, hstep⟩ | ⟨_, hstep⟩⟩ |
      ⟨hcur, hstep⟩⟩ := step_cases p l
    · exact absurd hc hn
    · rw [hstep]
    · exact absurd hc hn
    · rw [hstep]
    · exact absurd htakes (not_takes_iff.2 ⟨hcur, ho⟩)
  · exact .inr ((isSome_current_step p l).2 ⟨htakes, hc⟩)

/-- A line that is taken opens a block if none is open, and is not blank then. -/
theorem isBlankLine_of_takes (htakes : p.Takes l) (hcur : ¬ p.current.isSome) :
    Line.isBlankLine l = false := by
  rw [Line.isBlankLine_eq_false_iff]
  intro hl
  have hquiet : Line.IsQuiet l := .inl hl
  obtain ⟨-, ho⟩ := htakes.resolve_left hcur
  rw [hquiet.opened?_eq_none] at ho
  exact nomatch ho

/-- Outside of the blocks, a blank line leaves an empty one, but not before all blocks. -/
theorem flatMap_lines_alone (p : Partition) (l : Line) :
    (p.alone l).flatMap (·.lines) =
      if Line.isBlankLine l then if p.started then [[]] else [] else [l] := by
  rw [alone, Line.isEmpty_trim]
  cases Line.isBlankLine l with
  | false => rfl
  | true => cases p.started <;> rfl

/-- A line that a block takes is not emptied. -/
theorem StandsAfter.emptied_of_takes (h : p.StandsAfter (pre ++ l :: rest) pre)
    (htakes : p.Takes l) : Line.emptied (pre ++ l :: rest) pre.length l = l :=
  if_neg fun hblank => hblank.2 (h.takes_iff.1 htakes)

theorem StandsAfter.emptied_of_not_takes (h : p.StandsAfter (pre ++ l :: rest) pre)
    (htakes : ¬ p.Takes l) :
    Line.emptied (pre ++ l :: rest) pre.length l = if Line.isBlankLine l then [] else l := by
  have hout : ¬ Line.IsInside (pre ++ l :: rest) pre.length := mt h.takes_iff.2 htakes
  simp only [Line.emptied, and_iff_left hout]

/-- Only the blank lines before all blocks are left out. -/
theorem StandsAfter.kept_eq (h : p.StandsAfter (pre ++ rest) pre) :
    p.kept rest =
      if p.started = true ∨ p.current.isSome then
        rest.mapIdx fun j => Line.emptied (pre ++ rest) (pre.length + j)
      else (rest.mapIdx fun j => Line.emptied (pre ++ rest) (pre.length + j)).dropWhile
        Line.isBlankLine := by
  induction rest generalizing p pre with
  | nil => split <;> rfl
  | cons l rest ih =>
    have hafter : (p.step l).2.StandsAfter ((pre ++ [l]) ++ rest) (pre ++ [l]) := by
      rw [List.append_assoc]
      exact h.step
    have hkept := ih hafter
    have hrest : (rest.mapIdx fun j => Line.emptied (pre ++ l :: rest) (pre.length + (j + 1))) =
        rest.mapIdx fun j => Line.emptied (pre ++ [l] ++ rest) ((pre ++ [l]).length + j) := by
      have hj : ∀ j, pre.length + (j + 1) = (pre ++ [l]).length + j := fun j => by
        rw [List.length_append, List.length_singleton, Nat.add_assoc, Nat.add_comm j]
      rw [List.append_assoc]
      simp only [hj, List.singleton_append]
    rw [List.mapIdx_cons, Nat.add_zero, hrest, kept]
    by_cases htakes : p.Takes l
    · -- A line that is taken is kept as it is, and the first such line ends the blank ones before.
      rw [if_pos htakes, hkept, if_pos (started_step htakes), h.emptied_of_takes htakes,
        List.singleton_append]
      split
      · rfl
      · next hnone =>
        have hl := isBlankLine_of_takes htakes fun hcur => hnone (.inr hcur)
        rw [List.dropWhile_cons_of_neg (by rw [hl]; exact Bool.false_ne_true)]
    · obtain ⟨hcur, ho⟩ := not_takes_iff.1 htakes
      generalize rest.mapIdx _ = shown at hkept
      rw [if_neg htakes, flatMap_lines_alone, h.emptied_of_not_takes htakes, hkept,
        step_of_alone hcur ho, hcur, Line.isEmpty_trim]
      -- A line that stands alone is kept if it is not blank, or if something was started before.
      cases hl : Line.isBlankLine l with
      | false =>
        simp only [Bool.not_false, Bool.or_true, true_or, if_true, Bool.false_eq_true, if_false]
        rw [List.dropWhile_cons_of_neg (by rw [hl]; exact Bool.false_ne_true), ite_self]
        rfl
      | true =>
        simp only [Bool.not_true, Bool.or_false, if_true]
        rw [List.dropWhile_cons_of_pos rfl]
        cases p.started <;> rfl

/-- The lines that are kept of all lines. -/
theorem start_kept (ls : List Line) : start.kept ls = Line.kept ls := by
  have h := (show start.StandsAfter ([] ++ ls) [] from standsAfter_start ls).kept_eq
  rw [if_neg (by rintro (h | h) <;> exact nomatch h)] at h
  rw [h, Line.kept]
  simp only [List.nil_append, List.length_nil, Nat.zero_add]

end Partition

namespace Block

/-- The lines of the blocks of a text are those that are kept. -/
theorem flatMap_lines_partition (t : Text) :
    (partition t).flatMap (·.lines) = Line.kept (Text.lines t) := by
  rw [partition, Partition.flatMap_lines_run, Partition.start_kept]
  rfl

/-- The kept lines have the blocks of the text. -/
theorem run_kept_lines (t : Text) :
    Partition.start.run (Line.kept (Text.lines t)) = partition t := by
  rw [← Partition.start_kept, Partition.run_kept]
  rfl

/-- The texts of the blocks of a text, joined, have the lines of the text but for blank ones outside
    of the blocks, of which those at the start are left out and the others emptied; and they have
    the same blocks. A text of blank lines has none. -/
theorem partition_unlines_partition (t : Text) :
    let ls := Text.lines t
    let u := Text.unlines ((partition t).map text)
    if ∀ l ∈ ls, Line.isBlankLine l = true then partition t = []
    else Text.lines u = Line.kept ls ∧ partition u = partition t := by
  intro ls u
  split
  · next hblank =>
    rw [← run_kept_lines, (Line.kept_eq_nil_iff ls).2 hblank]
    rfl
  · next hblank =>
    have hlines : Text.lines u = Line.kept ls := by
      have hne : (partition t).map text ≠ [] := fun hnil => by
        rw [List.map_eq_nil_iff] at hnil
        have := flatMap_lines_partition t
        rw [hnil] at this
        exact hblank ((Line.kept_eq_nil_iff ls).1 this.symm)
      rw [Text.lines_unlines hne, flatMap_lines_map_text fun b hb => lines_of_mem_partition hb,
        flatMap_lines_partition]
    refine ⟨hlines, ?_⟩
    rw [partition, hlines, run_kept_lines]

end Block

end DbmlRestore
