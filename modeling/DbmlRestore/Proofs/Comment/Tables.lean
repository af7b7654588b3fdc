import DbmlRestore.Proofs.Block.Reorder
import DbmlRestore.Proofs.Block.Whole
import DbmlRestore.Proofs.Comment.Sites

/-!
# The comments of a table and its block

Extraction and partition find tables on their own: one with the place of a scan, the other with the
block that is open. In a text without block comments, the *inner* comments of a table, which stand
in its body or at the end of the line of a field, are found from the scan alone
(`Extraction.inner_linewise`).

A block of a table is *tracked* (`Block.IsTracked`) if the scan over the whole text is where a scan
over the lines of the block would be. One line keeps that, or closes the block and with that leads
the scan out of the table (`Partition.Tracks.step`). So if the headers of tables stand at depth
zero and their blocks are closed, the inner comments of the text are those of the blocks
(`Comment.extract_table_blocks`). A table that is not closed would go on for the scan, where its
block ends with the next header.
-/

namespace DbmlRestore

namespace Comment

/-- The comment stands in a table: in its body, or at the end of the line of a field. -/
def IsInner (c : Comment) : Prop := c.kind = .field ∨ c.kind = .inline

instance : DecidablePred IsInner := fun _ => inferInstanceAs (Decidable (_ ∨ _))

/-- The comments that stand in tables. -/
def inner (cs : List Comment) : List Comment := cs.filter (·.IsInner)

theorem inner_append (cs cs' : List Comment) : inner (cs ++ cs') = inner cs ++ inner cs' :=
  List.filter_append ..

theorem inner_eq_self {cs : List Comment} (h : ∀ c ∈ cs, c.IsInner) : inner cs = cs :=
  List.filter_eq_self.2 fun c hc => decide_eq_true (h c hc)

end Comment

/-! ## Inner comments of a scan -/

namespace TableScan

/-- The comments that a line gives to the table that the scan is in: the line itself if it is one
    and a brace is open, else what stands at its end. -/
def commentsOf (s : TableScan) (l : Line) : List Comment :=
  if Line.isDefinition l then []
  else if Line.isComment (Text.trim l) then s.bodyTable?.toList.map fun t => .inBody l (some t)
  else Extraction.inlineOf ⟨s, true, []⟩ l

/-- The comments that the lines give to the tables that the scan gets to. -/
def commentsIn (s : TableScan) : List Line → List Comment
  | [] => []
  | l :: ls => s.commentsOf l ++ (s.pass l).commentsIn ls

variable {s s' : TableScan} {l : Line}

/-- Scans that are alike find the same comments in a line. -/
theorem Alike.commentsOf_eq (h : s.Alike s') (l : Line) : s.commentsOf l = s'.commentsOf l := by
  rw [commentsOf, commentsOf, h.bodyTable?, Extraction.inlineOf, Extraction.inlineOf, h.table]

/-- The comments of lines are found in two parts, the second from where the first leads to. -/
theorem commentsIn_append (s : TableScan) (ls ls' : List Line) :
    s.commentsIn (ls ++ ls') = s.commentsIn ls ++ (s.after ls).commentsIn ls' := by
  induction ls generalizing s with
  | nil => rfl
  | cons l ls ih => rw [List.cons_append, commentsIn, ih, commentsIn, List.append_assoc, after_cons]

theorem commentsIn_singleton (s : TableScan) (l : Line) : s.commentsIn [l] = s.commentsOf l :=
  List.append_nil _

/-- A definition has no comment of a table. -/
theorem commentsOf_of_definition (hl : Line.isDefinition l = true) : s.commentsOf l = [] :=
  if_pos hl

/-- A comment that a line gives is anchored at the table that the scan is in. -/
theorem table_of_mem_commentsOf {c : Comment} (hc : c ∈ s.commentsOf l) :
    c.anchor.table = s.table? ∧ c.anchor.table.isSome := by
  rw [commentsOf] at hc
  split at hc
  · exact absurd hc List.not_mem_nil
  · split at hc
    · obtain ⟨t, ht, rfl⟩ := List.mem_map.1 hc
      exact ⟨(table?_of_bodyTable? (Option.mem_toList.1 ht)).symm, rfl⟩
    · rw [Extraction.inlineOf] at hc
      split at hc
      · next ht _ =>
        split at hc
        · rw [List.mem_singleton.1 hc]
          exact ⟨ht.symm, rfl⟩
        · exact absurd hc List.not_mem_nil
      · exact absurd hc List.not_mem_nil

/-- Where no table is current, no comment is one of a table. -/
theorem commentsOf_of_idle (hs : s.table? = none) (l : Line) : s.commentsOf l = [] :=
  List.eq_nil_iff_forall_not_mem.2 fun c hc => by
    obtain ⟨ht, hsome⟩ := table_of_mem_commentsOf hc
    rw [ht, hs] at hsome
    exact nomatch hsome

end TableScan

namespace Extraction

open Comment (inner)

variable {e : Extraction} {l : Line} {ls : List Line}

/-- Flushing what waits to records that are not inner makes no inner record. -/
theorem inner_flush (e : Extraction) (record : Text → Comment) (h : ∀ t, ¬ (record t).IsInner) :
    inner (e.flush record) = [] := by
  rw [flush]
  split
  · rfl
  · exact List.filter_eq_nil_iff.2 fun c hc => by
      rw [List.mem_singleton.1 hc, decide_eq_true_eq]
      exact h _

/-- What waits becomes no inner comment. -/
theorem inner_enterTable (e : Extraction) (table : Text) : inner (e.enterTable table).1 = [] := by
  rw [enterTable]
  dsimp only
  exact e.inner_flush _ fun t => by cases e.defined <;> rintro (h | h) <;> cases h

theorem inner_enterEnum (e : Extraction) : inner e.enterEnum.1 = [] := by
  rw [enterEnum]
  split
  · exact e.inner_flush _ fun t => by rintro (h | h) <;> cases h
  · rfl

/-- What waits at the end becomes the header or the footer, and no inner comment. -/
theorem inner_finish (e : Extraction) : inner e.finish = [] :=
  e.inner_flush _ fun t => by cases e.defined <;> rintro (h | h) <;> cases h

/-- The inner comments of a line are found from the scan alone. -/
theorem inner_step (e : Extraction) (hl : Line.opensComment (Text.trim l) = false) :
    inner (e.step (.single l)).1 = e.scan.commentsOf l ∧
      (e.step (.single l)).2.scan = e.scan.pass l := by
  refine ⟨?_, by rw [step_snd]; rfl⟩
  -- A header records what waits, which is not inner; the others record what the scan says.
  rcases (CommentUnit.single l).cases_first with ⟨h, ht⟩ | ⟨ht, he⟩ | hcomment | ⟨hdef, hcomment⟩
  · have hheader : Line.tableHeader? (Text.trim l) = some h := ht
    have hdef : Line.isDefinition l = true := by rw [Line.isDefinition, hheader]; rfl
    rw [step_of_header e ht, TableScan.commentsOf_of_definition hdef]
    exact e.inner_enterTable h.table
  · have hdef : Line.isDefinition l = true := Bool.or_eq_true_iff.2 (.inr he)
    rw [step_of_enum e ht he, TableScan.commentsOf_of_definition hdef]
    exact e.inner_enterEnum
  · have hmark : Line.isComment (Text.trim l) = true := hcomment.resolve_right fun hopens =>
      Bool.noConfusion (hl.symm.trans hopens)
    have hdef : Line.isDefinition l = false := hcomment.isDefinition_eq_false
    rw [step_of_comment e hcomment, TableScan.commentsOf, hdef, hmark, CommentUnit.text_single,
      addComment]
    cases e.scan.bodyTable? <;> rfl
  · have hmark : Line.isComment (Text.trim l) = false := Bool.eq_false_iff.2 fun hmark =>
      hcomment (.inl hmark)
    have hdef' : Line.isDefinition l = false := hdef
    rw [step_of_other e hdef hcomment, TableScan.commentsOf, hdef', hmark]
    exact Comment.inner_eq_self fun c hc => .inr (Comment.kind_of_mem_inlineOf hc)

/-- So are those of lines none of which opens a block comment. -/
theorem inner_linewise (e : Extraction)
    (hls : ∀ l ∈ ls, Line.opensComment (Text.trim l) = false) :
    inner (e.linewise ls) = e.scan.commentsIn ls := by
  induction ls generalizing e with
  | nil => exact e.inner_finish
  | cons l ls ih =>
    obtain ⟨hinner, hscan⟩ := e.inner_step (hls l List.mem_cons_self)
    rw [linewise_cons, Comment.inner_append, hinner,
      ih _ fun m hm => hls m (List.mem_cons_of_mem l hm), hscan]
    rfl

end Extraction

/-! ## Inner comments of blocks -/

namespace Block

/-- The inner comments of a block, scanned on its own. -/
def comments (b : Block) : List Comment := TableScan.start.commentsIn b.lines

/-- A line that is added to a block adds its comments to those of the block. -/
theorem comments_push (b : Block) (l : Line) :
    (b.push l).comments = b.comments ++ (TableScan.start.after b.lines).commentsOf l := by
  rw [comments, push, TableScan.commentsIn_append, TableScan.commentsIn_singleton]
  rfl

/-- A block is closed by a line that closes a brace and brings the depth to zero. -/
theorem isClosed_push_iff (b : Block) (l : Line) :
    (b.push l).IsClosed ↔ Line.ClosesAt (Line.depthOf b.lines) l := by
  rw [IsClosed, push, Line.depthOf_append, Line.depthOf_cons, Line.depthOf_nil, Int.add_zero,
    List.getLast?_concat, Line.ClosesAt]
  simp

/-- The scan is where it would be after the lines of the block, of a table that is not closed. -/
structure IsTracked (b : Block) (s : TableScan) : Prop where
  alike : s.Alike (TableScan.start.after b.lines)
  table : s.table? = b.table
  unclosed : ¬ b.IsClosed
  anchored : ∀ c ∈ b.comments, c.anchor.table = b.table

namespace IsTracked

variable {b : Block} {s : TableScan} {l : Line}

/-- The depth in a tracked block is that of its lines. -/
theorem depth (h : b.IsTracked s) : s.depth = Line.depthOf b.lines := by
  rw [h.alike.depth, TableScan.after_depth]
  exact Int.zero_add _

theorem comments_push (h : b.IsTracked s) (l : Line) :
    (b.push l).comments = b.comments ++ s.commentsOf l := by
  rw [Block.comments_push, h.alike.commentsOf_eq]

/-- The comments of a block that a line was added to are still on the table of the block. -/
theorem anchored_push (h : b.IsTracked s) (l : Line) :
    ∀ c ∈ (b.push l).comments, c.anchor.table = b.table := by
  intro c hc
  rw [h.comments_push] at hc
  rcases List.mem_append.1 hc with hc | hc
  · exact h.anchored c hc
  · rw [(TableScan.table_of_mem_commentsOf hc).1, h.table]

/-- A line that does not close the block is tracked with it. -/
theorem push (h : b.IsTracked s) (hl : Line.tableHeader? (Text.trim l) = none)
    (hc : ¬ Line.ClosesAt s.depth l) : (b.push l).IsTracked (s.pass l) where
  alike := by
    rw [Block.push, TableScan.after_append]
    exact h.alike.pass l
  table := by
    rw [TableScan.pass_table?_of_not_closesAt hc, TableScan.see_of_none hl, h.table]
    rfl
  unclosed := by rwa [isClosed_push_iff, ← h.depth]
  anchored := h.anchored_push l

end IsTracked

/-- The header of a table opens a block that is tracked, unless it closes it. -/
theorem isTracked_of_opened {b : Block} {s : TableScan} {l : Line} (hz : s.depth = 0)
    (hb : opened? (Text.trim l) = some b) (hk : b.kind = .table) (hc : ¬ Line.ClosesAt 0 l) :
    (b.push l).IsTracked (s.pass l) := by
  have hheader := headedBy_of_opened? hb
  obtain ⟨h, hl⟩ := Option.isSome_iff_exists.1 (hheader.isTableHeader_iff.2 hk)
  have hlines : (b.push l).lines = [l] := by rw [push, Line.lines_of_opened? hb]; rfl
  have hsee : s.see l = s.enter h.table := TableScan.see_of_header hl s
  -- The scan, the table, the lines that are open, and the comments, of which there are none yet.
  refine ⟨?_, ?_, ?_, ?_⟩
  · have hstart : TableScan.start.see l = TableScan.start.enter h.table :=
      TableScan.see_of_header hl _
    rw [hlines, TableScan.after_cons, TableScan.after_nil, TableScan.pass, TableScan.pass, hsee,
      hstart]
    have halike : (s.enter h.table).Alike (TableScan.start.enter h.table) := ⟨rfl, hz⟩
    exact halike.finish rfl rfl
  · rw [TableScan.pass_table?_of_not_closesAt (by rwa [hz]), hsee]
    show some h.table = b.table
    rw [hheader.table, hl]
    rfl
  · rw [isClosed_push_iff, Line.lines_of_opened? hb]
    exact hc
  · rw [comments, hlines, TableScan.commentsIn_singleton, TableScan.commentsOf_of_definition
      (by rw [Line.isDefinition, hl]; rfl)]
    exact fun c hc => absurd hc List.not_mem_nil

end Block

namespace Partition

open Block (ofKind)

variable {p : Partition} {s : TableScan} {l : Line} {ls : List Line}

/-- The comments of the tables among some blocks. -/
def tableComments (bs : List Block) : List Comment := (ofKind bs .table).flatMap (·.comments)

/-- The partition and the scan have the same depth, and the scan is in a table if and only if
    the block of one is open, which is tracked. -/
structure Tracks (p : Partition) (s : TableScan) : Prop where
  depth : p.depth = s.depth
  idle : (∀ b ∈ p.current, b.kind ≠ .table) → s.table? = none
  tracked : ∀ b ∈ p.current, b.kind = .table → b.IsTracked s

theorem tableComments_append (bs bs' : List Block) :
    tableComments (bs ++ bs') = tableComments bs ++ tableComments bs' := by
  rw [tableComments, ofKind_append, List.flatMap_append]
  rfl

theorem tableComments_of_kind_ne {b : Block} (hk : b.kind ≠ .table) : tableComments [b] = [] := by
  rw [tableComments, ofKind, List.filter_cons_of_neg (by rwa [decide_eq_true_eq])]
  rfl

theorem tableComments_of_table {b : Block} (hk : b.kind = .table) :
    tableComments [b] = b.comments := by
  have hfilter : ofKind [b] .table = [b] := List.filter_cons_of_pos (decide_eq_true hk)
  rw [tableComments, hfilter, List.flatMap_singleton]

theorem tableComments_flush_of_none (h : p.current = none) : tableComments p.flush = [] := by
  rw [flush, h]
  rfl

/-- The tables among the blocks are closed. -/
def TablesClosed (bs : List Block) : Prop := ∀ b ∈ bs, b.kind = .table → b.IsClosed

/-- The comments of the tables among the blocks are anchored at them. -/
def TablesAnchored (bs : List Block) : Prop :=
  ∀ b ∈ bs, b.kind = .table → ∀ c ∈ b.comments, c.anchor.table = b.table

namespace Tracks

/-- What is open and would be left that way is no table. -/
theorem kind_ne_of_flush (h : p.Tracks s) (hclosed : TablesClosed p.flush) :
    ∀ b ∈ p.current, b.kind ≠ .table := fun b hb hk =>
  (h.tracked b hb hk).unclosed (hclosed b (Option.mem_toList.2 hb) hk)

/-- A header at depth zero gives no comments to a table. -/
theorem opened (h : p.Tracks s) {b : Block} (hb : Block.opened? (Text.trim l) = some b)
    (hclosed : TablesClosed p.flush) :
    s.commentsOf l = [] ∧ tableComments [b.push l] = [] ∧ TablesAnchored [b.push l] := by
  have hcomments : b.kind = .table → (b.push l).comments = [] := fun hk => by
    have htable := (Block.headedBy_of_opened? hb).isTableHeader_iff.2 hk
    rw [Block.comments, Block.push, Line.lines_of_opened? hb]
    refine (TableScan.commentsIn_singleton _ l).trans (TableScan.commentsOf_of_definition ?_)
    rw [Line.isDefinition, htable, Bool.true_or]
  refine ⟨TableScan.commentsOf_of_idle (h.idle (h.kind_ne_of_flush hclosed)) l, ?_, ?_⟩
  · by_cases hk : b.kind = .table
    · rw [tableComments_of_table (b := b.push l) hk, hcomments hk]
    · exact tableComments_of_kind_ne hk
  · intro c hc hk
    obtain rfl := List.mem_singleton.1 hc
    rw [hcomments hk]
    exact fun d hd => absurd hd List.not_mem_nil

/-- In a block that is no table, the scan is in none. -/
theorem table?_of_kind_ne (h : p.Tracks s) {b : Block} (hcur : p.current = some b)
    (hk : b.kind ≠ .table) : s.table? = none :=
  h.idle fun c hc => by rwa [← Option.some.inj (hcur.symm.trans hc)]

/-- A line that joins a block gives its comments to it. -/
theorem joined (h : p.Tracks s) {b : Block} (hcur : p.current = some b) (l : Line) :
    tableComments [b.push l] = tableComments p.flush ++ s.commentsOf l ∧
      TablesAnchored [b.push l] := by
  have hflush : p.flush = [b] := by rw [flush, hcur]; rfl
  rw [hflush]
  refine ⟨?_, fun c hc hk => ?_⟩
  · by_cases hk : b.kind = .table
    · rw [tableComments_of_table (b := b.push l) hk, tableComments_of_table hk,
        (h.tracked b hcur hk).comments_push]
    · have hidle : s.table? = none := h.idle fun c hc => by
        rwa [← Option.some.inj (hcur.symm.trans hc)]
      rw [tableComments_of_kind_ne hk, tableComments_of_kind_ne (b := b.push l) hk,
        TableScan.commentsOf_of_idle hidle]
      rfl
  · obtain rfl := List.mem_singleton.1 hc
    exact (h.tracked b hcur hk).anchored_push l

/-- An open block is ended with its comments on its own table. -/
theorem anchored_flush (h : p.Tracks s) : TablesAnchored p.flush := fun b hb hk =>
  (h.tracked b (Option.mem_toList.1 hb) hk).anchored

/-- Where no block is open, the scan must be in no table. -/
theorem of_none (hdepth : p.depth = s.depth) (hcur : p.current = none) (hs : s.table? = none) :
    p.Tracks s :=
  ⟨hdepth, fun _ => hs, fun b hb => by rw [hcur] at hb; cases hb⟩

/-- Where a block is open, it must be tracked if it is a table, and else the scan be in no
    table. -/
theorem of_some (hdepth : p.depth = s.depth) {b : Block} (hcur : p.current = some b)
    (htable : b.kind = .table → b.IsTracked s) (hother : b.kind ≠ .table → s.table? = none) :
    p.Tracks s :=
  ⟨hdepth, fun hall => hother (hall b hcur), fun _ hc =>
    Option.some.inj (hcur.symm.trans hc) ▸ htable⟩

theorem depth_step (h : p.Tracks s) (l : Line) : (p.step l).2.depth = (s.pass l).depth := by
  rw [step_depth, h.depth, s.pass_depth]

/-- Partition and scan find the same lines to be closing ones. -/
theorem closes_iff (h : p.Tracks s) : p.Closes l ↔ Line.ClosesAt s.depth l := by
  rw [← h.depth]
  rfl

end Tracks

/-- What a line leaves behind: the scan is at the block that is open then, the tables that are
    complete have their own comments, and no other comments are found. -/
structure Passes (p : Partition) (s : TableScan) (l : Line) : Prop where
  tracks : (p.step l).2.Tracks (s.pass l)
  anchored : TablesAnchored (p.step l).1
  comments : tableComments (p.step l).1 ++ tableComments (p.step l).2.flush =
    tableComments p.flush ++ s.commentsOf l

namespace Tracks

/-- A header at depth zero starts a block, and may end it. -/
theorem passes_of_opened (h : p.Tracks s) {b : Block} (hd : p.depth = 0)
    (hb : Block.opened? (Text.trim l) = some b) (hclosed : TablesClosed (p.step l).1) :
    p.Passes s l := by
  by_cases hc : p.Closes l
  · -- The header closes the block again, and with it the table.
    have hstep := step_of_opened_closed hd hb hc
    rw [hstep] at hclosed
    obtain ⟨hl, hcomments, hanchored⟩ :=
      h.opened hb fun c hc => hclosed c (List.mem_append_left _ hc)
    refine ⟨of_none (h.depth_step l) (by rw [hstep]) ?_, ?_, ?_⟩
    · exact TableScan.pass_table?_of_closesAt (h.closes_iff.1 hc)
    · rw [hstep]
      exact fun c hc => (List.mem_append.1 hc).elim (h.anchored_flush c) (hanchored c)
    · rw [hstep, hl, tableComments_append, hcomments]
      exact List.append_nil _
  · -- The header leaves the block open, and its table is the one that the scan is in.
    have hstep := step_of_opened hd hb hc
    rw [hstep] at hclosed
    obtain ⟨hl, hcomments, -⟩ := h.opened hb hclosed
    have hidle := h.idle (h.kind_ne_of_flush hclosed)
    refine ⟨of_some (b := b.push l) (h.depth_step l) (by rw [hstep]) (fun hk => ?_) (fun hk => ?_),
      ?_, ?_⟩
    · exact Block.isTracked_of_opened (h.depth.symm.trans hd) hb hk (by rwa [Closes, hd] at hc)
    · have htable := mt (Block.headedBy_of_opened? hb).isTableHeader_iff.1 hk
      exact TableScan.pass_table?_of_idle hidle (Option.not_isSome_iff_eq_none.1 htable)
    · rw [hstep]
      exact h.anchored_flush
    · rw [hstep, hl]
      exact congrArg _ hcomments

/-- A line joins the block that is open, and may end it. -/
theorem passes_of_joined (h : p.Tracks s) {b : Block} (hcur : p.current = some b)
    (ho : p.depth = 0 → Block.opened? (Text.trim l) = none)
    (hl : Line.tableHeader? (Text.trim l) = none) : p.Passes s l := by
  obtain ⟨hcomments, hanchored⟩ := h.joined hcur l
  by_cases hc : p.Closes l
  · have hstep := step_of_closed hcur ho hc
    refine ⟨of_none (h.depth_step l) (by rw [hstep]) ?_, ?_, ?_⟩
    · exact TableScan.pass_table?_of_closesAt (h.closes_iff.1 hc)
    · rw [hstep]
      exact hanchored
    · rw [hstep, ← hcomments]
      exact List.append_nil _
  · have hstep := step_of_joined hcur ho hc
    refine ⟨of_some (b := b.push l) (h.depth_step l) (by rw [hstep]) (fun hk => ?_) (fun hk => ?_),
      ?_, ?_⟩
    · exact (h.tracked b hcur hk).push hl (mt h.closes_iff.2 hc)
    · exact TableScan.pass_table?_of_idle (h.table?_of_kind_ne hcur hk) hl
    · rw [hstep]
      exact fun c hc => absurd hc List.not_mem_nil
    · rw [hstep]
      exact hcomments

/-- A line outside of the blocks is in no table. -/
theorem passes_of_alone (h : p.Tracks s) (hcur : p.current = none)
    (ho : p.depth = 0 → Block.opened? (Text.trim l) = none)
    (hl : Line.tableHeader? (Text.trim l) = none) : p.Passes s l := by
  have hstep := step_of_alone hcur ho
  have hidle : s.table? = none := h.idle fun b hb => by rw [hcur] at hb; cases hb
  have halone : ofKind (p.alone l) .table = [] := List.filter_eq_nil_iff.2 fun b hb => by
    rw [kind_of_mem_alone hb]
    decide
  refine ⟨of_none (h.depth_step l) (by rw [hstep]) (TableScan.pass_table?_of_idle hidle hl),
    ?_, ?_⟩
  · rw [hstep]
    intro b hb hk
    cases (kind_of_mem_alone hb).symm.trans hk
  · rw [hstep, TableScan.commentsOf_of_idle hidle, tableComments_flush_of_none hcur,
      tableComments_flush_of_none rfl, tableComments, halone]
    rfl

/-- A line keeps the scan at the block that is open, and gives its comments to it. -/
theorem step (h : p.Tracks s) (hz : Line.IsTableHeader l → p.depth = 0)
    (hclosed : TablesClosed (p.step l).1) : p.Passes s l := by
  by_cases ho : p.depth = 0 → Block.opened? (Text.trim l) = none
  · -- Tables stand at depth zero, where their headers open blocks.
    have hl : Line.tableHeader? (Text.trim l) = none := by
      by_contra hne
      exact hne (Line.opened?_eq_none_iff.1 (ho (hz (Option.isSome_iff_ne_none.2 hne)))).1
    cases hcur : p.current with
    | none => exact h.passes_of_alone hcur ho hl
    | some b => exact h.passes_of_joined hcur ho hl
  · rw [Classical.not_imp, ← ne_eq, Option.ne_none_iff_exists'] at ho
    obtain ⟨hd, b, hb⟩ := ho
    exact h.passes_of_opened hd hb hclosed

/-- The comments that a scan finds in tables are those of the blocks of tables. -/
theorem run (h : p.Tracks s) (hz : Line.AtZero Line.IsTableHeader p.depth ls)
    (hclosed : TablesClosed (p.run ls)) :
    TablesAnchored (p.run ls) ∧
      tableComments (p.run ls) = tableComments p.flush ++ s.commentsIn ls := by
  induction ls generalizing p s with
  | nil =>
    refine ⟨fun b hb hk => ?_, (List.append_nil _).symm⟩
    exact (h.tracked b (Option.mem_toList.1 hb) hk).anchored
  | cons l ls ih =>
    rw [run_cons] at hclosed
    obtain ⟨htracks, hanchored, hcomments⟩ := h.step hz.head
      fun b hb => hclosed b (List.mem_append_left _ hb)
    obtain ⟨hanchored', hcomments'⟩ := ih htracks (by rw [step_depth]; exact hz.tail)
      fun b hb => hclosed b (List.mem_append_right _ hb)
    refine ⟨fun b hb => ?_, ?_⟩
    · rw [run_cons] at hb
      exact (List.mem_append.1 hb).elim (hanchored b) (hanchored' b)
    · rw [run_cons, tableComments_append, hcomments', ← List.append_assoc, hcomments,
        List.append_assoc]
      rfl

end Tracks

theorem tracks_start : start.Tracks .start := ⟨rfl, fun _ => rfl, fun _ hb => nomatch hb⟩

end Partition

namespace Comment

/-- The lines of the blocks of a text open no block comments, if those of the text do not. -/
theorem inner_extract_text {t : Text}
    (hopen : ∀ l ∈ Text.lines t, Line.opensComment (Text.trim l) = false) {b : Block}
    (hb : b ∈ Block.partition t) : inner (extract b.text) = b.comments := by
  obtain ⟨hne, hlines⟩ : b.lines ≠ [] ∧
      ∀ l ∈ b.lines, '\n' ∉ l ∧ Line.opensComment (Text.trim l) = false :=
    Partition.forall_mem_run ⟨List.not_mem_nil, rfl⟩
      (fun l hl => ⟨Text.newline_not_mem hl, hopen l hl⟩)
      (fun _ hc => absurd hc (Option.not_mem_none _)) b hb
  have htext : Text.lines b.text = b.lines :=
    Text.lines_unlines_of_forall hne fun l hl => (hlines l hl).1
  rw [extract_eq_linewise (by rw [htext]; exact fun l hl => (hlines l hl).2), htext,
    Extraction.inner_linewise _ fun l hl => (hlines l hl).2]
  rfl

/-- In a text without block comments, in which tables start at depth zero and their blocks are
    closed, the comments that stand in tables are those of the blocks of tables, in order; and each
    is anchored at the table of its block. -/
theorem extract_table_blocks (t : Text)
    (hopen : ∀ l ∈ Text.lines t, Line.opensComment (Text.trim l) = false)
    (hz : Line.AtZero Line.IsTableHeader 0 (Text.lines t))
    (hclosed : ∀ b ∈ Block.partition t, b.kind = .table → b.IsClosed) :
    inner (extract t) =
        (Block.ofKind (Block.partition t) .table).flatMap (fun b => inner (extract b.text)) ∧
      ∀ b ∈ Block.ofKind (Block.partition t) .table, ∀ c ∈ inner (extract b.text),
        c.anchor.table = b.table := by
  obtain ⟨hanchored, hcomments⟩ := Partition.tracks_start.run hz hclosed
  have hblock : ∀ b ∈ Block.ofKind (Block.partition t) .table,
      inner (extract b.text) = b.comments := fun b hb =>
    inner_extract_text hopen (List.mem_filter.1 hb).1
  refine ⟨?_, fun b hb c hc => ?_⟩
  · rw [List.flatMap_congr hblock, extract_eq_linewise hopen, Extraction.inner_linewise _ hopen]
    exact hcomments.symm
  · rw [hblock b hb] at hc
    obtain ⟨hmem, hk⟩ := List.mem_filter.1 hb
    exact hanchored b hmem (of_decide_eq_true hk) c hc

/-- Of the remarks here, those outside of the two tables and at their headers stand in none. -/
theorem extract_table_blocks_two :
    let t := Text.unlines (["Table a \x7b // h", "  // c", "  \"id\" int // k", "\x7d", "// r",
      "Enum e \x7b", "  // v", "\x7d", "Table s.b \x7b", "  \"n\" int // m", "\x7d"].map
        String.toList)
    inner (extract t) = [inBody "  // c".toList (some "a".toList),
      inline "// k".toList (some "a".toList) (some "id".toList),
      inline "// m".toList (some "b".toList) (some "n".toList)] := by
  intro t
  refine (extract_table_blocks t ?_ ?_ ?_).1.trans ?_
  all_goals decide +kernel

end Comment

end DbmlRestore
