import DbmlRestore.Proofs.Block.Partition
import DbmlRestore.Proofs.Line.Quiet

/-!
# Lines inside of blocks

A line is *enclosed* (`Block.enclosed`) if it is one of a block that is laid out. These are the
lines that blocks take as they are passed (`Partition.enclosed_run`), and all lines that a scan
sees in a table are among them (`Partition.Follows.tabled_sublist`), as the block of a table is
open at least as long as the scan is in the table. Remarks that are not enclosed can be left out
of a text without any effect on its blocks (`Partition.ofKind_run_filter`), and so can remarks at
its end (`Partition.ofKind_run_append`).
-/

namespace DbmlRestore

/-- The lines that a scan sees in a table. -/
def TableScan.tabled (s : TableScan) : List Line → List Line
  | [] => []
  | l :: ls => (if (s.see l).table?.isSome then [l] else []) ++ (s.pass l).tabled ls

namespace Block

/-- The lines of the blocks that are laid out. -/
def enclosed (bs : List Block) : List Line := (bs.filter (·.kind ≠ .other)).flatMap (·.lines)

variable {bs : List Block} {l : Line}

/-- The enclosed lines are those of the blocks that are not left over. -/
theorem mem_enclosed : l ∈ enclosed bs ↔ ∃ b ∈ bs, b.kind ≠ .other ∧ l ∈ b.lines := by
  simp only [enclosed, List.mem_flatMap, List.mem_filter, decide_eq_true_eq, and_assoc]

theorem enclosed_append (bs bs' : List Block) :
    enclosed (bs ++ bs') = enclosed bs ++ enclosed bs' := by
  rw [enclosed, List.filter_append, List.flatMap_append]
  rfl

theorem enclosed_of_forall (h : ∀ b ∈ bs, b.kind ≠ .other) :
    enclosed bs = bs.flatMap (·.lines) := by
  rw [enclosed, List.filter_eq_self.2 fun b hb => decide_eq_true (h b hb)]

theorem enclosed_eq_nil (h : ∀ b ∈ bs, b.kind = .other) : enclosed bs = [] := by
  rw [enclosed, List.filter_eq_nil_iff.2 fun b hb => by simpa using h b hb]
  rfl

/-- A block that a line opens is laid out. -/
theorem kind_of_opened? {t : Line} {b : Block} (h : opened? t = some b) : b.kind ≠ .other := by
  rw [opened?] at h
  split at h
  · rw [← Option.some.inj h]
    rintro ⟨⟩
  · split at h
    · rw [← Option.some.inj h]
      rintro ⟨⟩
    · split at h
      · rw [← Option.some.inj h]
        rintro ⟨⟩
      · cases h

end Block

namespace Partition

variable {p : Partition} {s : TableScan} {l : Line} {ls : List Line}

/-! ## The lines that are taken -/

/-- What is open is laid out. -/
def IsLaid (p : Partition) : Prop := ∀ b ∈ p.current, b.kind ≠ .other

/-- The lines of the block that is open. -/
def openLines (p : Partition) : List Line := p.current.toList.flatMap (·.lines)

/-- Whether a line joins the block that is open, or opens one. -/
def Takes (p : Partition) (l : Line) : Prop :=
  p.current.isSome ∨ p.depth = 0 ∧ (Block.opened? (Text.trim l)).isSome

instance (p : Partition) (l : Line) : Decidable (p.Takes l) := inferInstanceAs (Decidable (_ ∨ _))

/-- The lines that are not taken are those outside of the blocks that open none. -/
theorem not_takes_iff : ¬ p.Takes l ↔
    p.current = none ∧ (p.depth = 0 → Block.opened? (Text.trim l) = none) := by
  rw [Takes, not_or, Option.not_isSome_iff_eq_none, not_and, Option.not_isSome_iff_eq_none]

/-- The lines that blocks take. -/
def taken (p : Partition) : List Line → List Line
  | [] => []
  | l :: ls => (if p.Takes l then [l] else []) ++ (p.step l).2.taken ls

theorem openLines_mk_some (b : Block) (depth : Int) (started : Bool) :
    openLines ⟨some b, depth, started⟩ = b.lines := List.append_nil _

theorem openLines_of_some {b : Block} (h : p.current = some b) : p.openLines = b.lines := by
  rw [openLines, h]
  exact List.append_nil _

theorem openLines_of_none (h : p.current = none) : p.openLines = [] := by
  rw [openLines, h]
  rfl

/-- What is enclosed when an open block is ended is what the block had. -/
theorem enclosed_flush (hp : p.IsLaid) : Block.enclosed p.flush = p.openLines :=
  Block.enclosed_of_forall fun b hb => hp b (Option.mem_toList.1 hb)

/-- A line is kept in the block that is open afterwards, or in those that it completes. -/
theorem flatMap_lines_step (p : Partition) (l : Line) :
    (p.step l).1.flatMap (·.lines) ++ (p.step l).2.openLines =
      p.openLines ++ if p.Takes l then [l] else (p.alone l).flatMap (·.lines) := by
  have hpush : ∀ {b : Block} (d : Int) (started : Bool),
      openLines ⟨some (b.push l), d, started⟩ = b.lines ++ [l] := fun d started =>
    openLines_mk_some _ d started
  have hdone : ∀ started, openLines ⟨none, 0, started⟩ = [] := fun _ => rfl
  -- The line opens a block or joins the open one, which goes on or is closed, or it stands alone.
  obtain ⟨b, hz, hb, ⟨hc, hstep⟩ | ⟨hc, hstep⟩⟩ | ⟨ho, ⟨b, hcur, ⟨hc, hstep⟩ | ⟨hc, hstep⟩⟩ |
    ⟨hcur, hstep⟩⟩ := step_cases p l
  · have htakes : p.Takes l := .inr ⟨hz, by rw [hb]; rfl⟩
    rw [hstep, if_pos htakes, hpush, Line.lines_of_opened? hb]
    rfl
  · have htakes : p.Takes l := .inr ⟨hz, by rw [hb]; rfl⟩
    rw [hstep, if_pos htakes, hdone, List.append_nil, List.flatMap_append, List.flatMap_singleton,
      Block.push, Line.lines_of_opened? hb]
    rfl
  · have htakes : p.Takes l := .inl (by rw [hcur]; rfl)
    rw [hstep, if_pos htakes, hpush, openLines_of_some hcur]
    rfl
  · have htakes : p.Takes l := .inl (by rw [hcur]; rfl)
    rw [hstep, if_pos htakes, hdone, openLines_of_some hcur, List.append_nil,
      List.flatMap_singleton]
    rfl
  · rw [hstep, if_neg (not_takes_iff.2 ⟨hcur, ho⟩), openLines_of_none hcur, List.nil_append]
    exact List.append_nil _

/-- What is open stays laid out, and so is what a line that is taken completes. -/
theorem IsLaid.step (hp : p.IsLaid) (l : Line) :
    (∀ b ∈ (p.step l).1, p.Takes l → b.kind ≠ .other) ∧ (p.step l).2.IsLaid :=
  forall_step (H := fun _ b => b.kind ≠ .other) (Q := fun b => p.Takes l → b.kind ≠ .other) hp
    (fun b _ hb => show b.kind ≠ .other from Block.kind_of_opened? hb) hp (fun _ hb _ => hb)
    fun hcur ho _ _ htakes => absurd htakes (not_takes_iff.2 ⟨hcur, ho⟩)

/-- A line is taken by the block that is open afterwards, or by one that it completes. -/
theorem enclosed_step (hp : p.IsLaid) (l : Line) :
    Block.enclosed (p.step l).1 ++ (p.step l).2.openLines =
      p.openLines ++ if p.Takes l then [l] else [] := by
  by_cases htakes : p.Takes l
  · have hkept := flatMap_lines_step p l
    rw [if_pos htakes] at hkept
    rw [Block.enclosed_of_forall fun b hb => (hp.step l).1 b hb htakes, hkept, if_pos htakes]
  · obtain ⟨hcur, ho⟩ := not_takes_iff.1 htakes
    rw [step_of_alone hcur ho, if_neg htakes, openLines_of_none hcur,
      Block.enclosed_eq_nil fun b hb => kind_of_mem_alone hb]
    rfl

/-- The lines of the blocks are those that are taken. -/
theorem enclosed_run (hp : p.IsLaid) :
    Block.enclosed (p.run ls) = p.openLines ++ p.taken ls := by
  induction ls generalizing p with
  | nil => rw [run, enclosed_flush hp, taken, List.append_nil]
  | cons l ls ih =>
    rw [run_cons, Block.enclosed_append, ih (hp.step l).2, ← List.append_assoc, enclosed_step hp,
      taken, List.append_assoc]

theorem isLaid_start : start.IsLaid := fun _ h => nomatch h

/-! ## Tables -/

/-- The partition and the scan have the same depth, and a block is open as long as the scan is
    in a table. -/
structure Follows (p : Partition) (s : TableScan) : Prop where
  depth : p.depth = s.depth
  current : s.table?.isSome → p.current.isSome

/-- In a text whose headers stand at depth zero, a line in a table belongs to the block that is
    open. -/
theorem Follows.takes (h : Follows p s)
    (hz : (Line.tableHeader? (Text.trim l)).isSome → p.depth = 0)
    (hs : (s.see l).table?.isSome) : p.Takes l := by
  cases hl : Line.tableHeader? (Text.trim l) with
  | none =>
    rw [TableScan.see_of_none hl] at hs
    exact .inl (h.current hs)
  | some header =>
    refine .inr ⟨hz (by rw [hl]; rfl), ?_⟩
    rw [Block.opened?, hl]
    rfl

/-- A block stays open as long as the scan is in the table. -/
theorem Follows.step (h : Follows p s)
    (hz : (Line.tableHeader? (Text.trim l)).isSome → p.depth = 0) :
    Follows (p.step l).2 (s.pass l) := by
  have hdepth := s.pass_depth l
  -- A line that closes the block leads out of the table.
  have hclosed : p.Closes l → (s.pass l).table? = none := by
    rintro ⟨hd, hc⟩
    rw [TableScan.pass, TableScan.finish_table?, TableScan.see_depth, ← h.depth, if_pos ⟨hd, hc⟩]
  obtain ⟨b, hd, hb, ⟨hc, hstep⟩ | ⟨hc, hstep⟩⟩ | ⟨ho, ⟨b, hcur, ⟨hc, hstep⟩ | ⟨hc, hstep⟩⟩ |
    ⟨hcur, hstep⟩⟩ := step_cases p l
  · rw [hstep]
    exact ⟨by rw [hdepth, ← h.depth, hd, Int.zero_add], fun _ => rfl⟩
  · rw [hstep]
    refine ⟨by rw [hdepth, ← h.depth]; exact hc.1.symm, fun hs => ?_⟩
    rw [hclosed hc] at hs
    cases hs
  · rw [hstep]
    exact ⟨by rw [hdepth, ← h.depth], fun _ => rfl⟩
  · rw [hstep]
    refine ⟨by rw [hdepth, ← h.depth]; exact hc.1.symm, fun hs => ?_⟩
    rw [hclosed hc] at hs
    cases hs
  · rw [hstep]
    refine ⟨by rw [hdepth, ← h.depth], fun hs => ?_⟩
    -- Without an open block there is no table, and the line is no header of one.
    have hsee : (s.see l).table?.isSome := by
      rcases s.pass_table?_eq l with hnone | heq
      · rw [hnone] at hs
        cases hs
      · exact heq ▸ hs
    exact absurd (h.takes hz hsee) (not_takes_iff.2 ⟨hcur, ho⟩)

/-- The lines in tables are taken. -/
theorem Follows.tabled_sublist (h : Follows p s)
    (hz : Line.AtZero Line.IsTableHeader s.depth ls) :
    (s.tabled ls).Sublist (p.taken ls) := by
  induction ls generalizing p s with
  | nil => exact .slnil
  | cons l ls ih =>
    have hz' : Line.AtZero Line.IsTableHeader (s.pass l).depth ls := by
      rw [s.pass_depth]
      exact hz.tail
    have hhead := fun hl => h.depth.trans (hz.head hl)
    refine List.Sublist.append ?_ (ih (h.step hhead) hz')
    by_cases hs : (s.see l).table?.isSome
    · rw [if_pos hs, if_pos (h.takes hhead hs)]
    · rw [if_neg hs]
      exact List.nil_sublist _

/-! ## Quiet lines -/

/-- A quiet line outside of the blocks has no effect on the blocks that are laid out. -/
theorem ofKind_step_quiet {k : BlockKind} (hk : k ≠ .other) (hcur : p.current = none)
    (hl : Line.IsQuiet l) (ls : List Line) :
    Block.ofKind (p.step l).1 k = [] ∧
      Block.ofKind ((p.step l).2.run ls) k = Block.ofKind (p.run ls) k := by
  obtain ⟨current, depth, started⟩ := p
  obtain rfl : current = none := hcur
  rw [step_of_alone rfl fun _ => hl.opened?_eq_none, hl.depthChange_eq_zero, Int.add_zero]
  refine ⟨List.filter_eq_nil_iff.2 fun b hb => ?_, ofKind_run_started hk none depth _ started ls⟩
  rw [kind_of_mem_alone hb, decide_eq_true_eq]
  exact hk.symm

/-- A quiet line outside of the blocks is in none of any kind. -/
theorem ofKind_run_quiet {k : BlockKind} (hk : k ≠ .other) (hcur : p.current = none)
    (hl : Line.IsQuiet l) (ls : List Line) :
    Block.ofKind (p.run (l :: ls)) k = Block.ofKind (p.run ls) k := by
  obtain ⟨hfst, hsnd⟩ := ofKind_step_quiet hk hcur hl ls
  rw [run_cons, ofKind_append, hfst, hsnd, List.nil_append]

/-- A block that is open takes the quiet lines that follow. -/
theorem taken_of_quiet (hcur : p.current.isSome) (hls : ∀ l ∈ ls, Line.IsQuiet l) :
    p.taken ls = ls := by
  induction ls generalizing p with
  | nil => rfl
  | cons l ls ih =>
    obtain ⟨b, hb⟩ := Option.isSome_iff_exists.1 hcur
    have hl := hls l List.mem_cons_self
    rw [taken, if_pos (.inl hcur), ih _ fun k hk => hls k (List.mem_cons_of_mem l hk)]
    · rfl
    · rw [step_of_joined hb (fun _ => hl.opened?_eq_none) (not_closes hl.closes_eq)]
      rfl

/-- Remarks that are in no block can be left out. -/
theorem ofKind_run_filter (hp : p.IsLaid)
    (hls : ∀ l ∈ ls, Line.isComment (Text.trim l) = true → Line.IsRemark l)
    (hno : ∀ l ∈ p.taken ls, Line.isComment (Text.trim l) = false) {k : BlockKind}
    (hk : k ≠ .other) :
    Block.ofKind (p.run (ls.filter fun l => !Line.isComment (Text.trim l))) k =
      Block.ofKind (p.run ls) k := by
  induction ls generalizing p with
  | nil => rfl
  | cons l ls ih =>
    have hrest := fun k hk => hls k (List.mem_cons_of_mem l hk)
    have hno' : ∀ k ∈ (p.step l).2.taken ls, Line.isComment (Text.trim k) = false :=
      fun k hk => hno k (List.mem_append_right _ hk)
    have ih' := ih (hp.step l).2 hrest hno'
    cases hl : Line.isComment (Text.trim l) with
    | false =>
      rw [List.filter_cons_of_pos (by rw [hl]; rfl), run_cons, run_cons, ofKind_append,
        ofKind_append, ih']
    | true =>
      have hq : Line.IsQuiet l := .inr (hls l List.mem_cons_self hl)
      -- An open block would take the comment, which none of them does.
      have hcur : p.current = none := by
        rw [← Option.not_isSome_iff_eq_none]
        intro hcur
        have := hno l (List.mem_append_left _ (by
          rw [if_pos (.inl hcur)]
          exact List.mem_singleton_self l))
        exact Bool.noConfusion (hl.symm.trans this)
      rw [List.filter_cons_of_neg (by rw [hl]; exact nofun), ofKind_run_quiet hk hcur hq,
        ← (ofKind_step_quiet hk hcur hq _).2, ih', (ofKind_step_quiet hk hcur hq ls).2]

/-- Remarks at the end that are in no block can be left out, with the blank lines before
    them. -/
theorem ofKind_run_append {tail : List Line} (hp : p.IsLaid) (htail : ∀ l ∈ tail, Line.IsQuiet l)
    (hlast : ∀ l ∈ tail.getLast?, Line.IsRemark l)
    (hno : ∀ l ∈ p.taken (ls ++ tail), Line.isComment (Text.trim l) = false) {k : BlockKind}
    (hk : k ≠ .other) :
    Block.ofKind (p.run (ls ++ tail)) k = Block.ofKind (p.run ls) k := by
  induction ls generalizing p with
  | nil =>
    rw [List.nil_append] at hno ⊢
    cases hcur : p.current with
    | none =>
      clear hlast hno
      induction tail with
      | nil => rfl
      | cons l tail ih =>
        rw [ofKind_run_quiet hk hcur (htail l List.mem_cons_self)]
        exact ih fun k hk => htail k (List.mem_cons_of_mem l hk)
    | some b =>
      -- An open block would take the tail, and the remark at its end with it.
      rw [taken_of_quiet (by rw [hcur]; rfl) htail] at hno
      cases hl : tail.getLast? with
      | none => rw [List.getLast?_eq_none_iff.1 hl]
      | some r =>
        have := hno r (List.mem_of_getLast? hl)
        exact Bool.noConfusion ((hlast r hl).isComment.symm.trans this)
  | cons l ls ih =>
    rw [List.cons_append, run_cons, run_cons, ofKind_append, ofKind_append,
      ih (hp.step l).2 fun k hk => hno k (List.mem_append_right _ hk)]

end Partition

end DbmlRestore
