import DbmlRestore.Proofs.Block.Sheet
import DbmlRestore.Proofs.Comment.Dressing
import Mathlib.Data.List.Infix

/-!
# Dressed blocks

Comments that are not inside of bodies are put above the headers of tables and at the end of the
lines of fields. What becomes of a line then hangs on the table that the scan is in, and on nothing
else (`TableScan.dressed`). A block that is self-contained (`Block.IsSelfContained`) is passed from
the outside of the tables to the outside of the tables, so that it can be dressed on its own: its
comments are put above it, and its fields take theirs (`TableScan.dressed_block`).

A dressed block is whole and closed as the block was (`Block.IsWhole.dressed`), it can be made neat
before or after (`Block.neat_dressed`), and to dress it a second time changes nothing
(`Block.dressed_dressed`).
-/

namespace DbmlRestore

/-! ## Lines -/

namespace Comment

/-- A comment of the schema's header, of a table or of a field that can be put back twice. Above a
    line, it has neither braces nor headers; at the end of one, it has the mark of a comment, no
    braces and no line feed. -/
structure IsRepeatable (c : Comment) : Prop where
  kind : c.kind = .header ∨ c.kind = .table ∨ c.kind = .inline
  above : c.kind ≠ .inline → ∀ l ∈ Text.lines c.text, Line.IsInert l
  inline : c.kind = .inline → Line.commentMark <:+: c.text ∧ '\n' ∉ c.text ∧
    Line.opens c.text = 0 ∧ Line.closes c.text = 0

instance (c : Comment) : Decidable c.IsRepeatable :=
  decidable_of_iff ((c.kind = .header ∨ c.kind = .table ∨ c.kind = .inline) ∧
      (c.kind ≠ .inline → ∀ l ∈ Text.lines c.text, Line.IsInert l) ∧
      (c.kind = .inline → Line.commentMark <:+: c.text ∧ '\n' ∉ c.text ∧
        Line.opens c.text = 0 ∧ Line.closes c.text = 0))
    ⟨fun ⟨hk, ha, hi⟩ => ⟨hk, ha, hi⟩, fun ⟨hk, ha, hi⟩ => ⟨hk, ha, hi⟩⟩

/-- Repeatable comments have none for the body of a table. -/
theorem textsOn_field_eq_nil {cs : List Comment} (hcs : ∀ c ∈ cs, c.IsRepeatable) (table : Text) :
    textsOn cs .field table = [] := by
  refine List.eq_nil_iff_forall_not_mem.2 fun t ht => ?_
  obtain ⟨c, hc, hk, -, -⟩ := exists_of_mem_textsOn ht
  have := (hcs c hc).kind
  rw [hk] at this
  simp at this

/-- Repeatable comments have none for the bottom. -/
theorem bottom_eq_nil {cs : List Comment} (hcs : ∀ c ∈ cs, c.IsRepeatable) : bottom cs = [] := by
  refine if_pos (List.eq_nil_iff_forall_not_mem.2 fun t ht => ?_)
  obtain ⟨c, hc, hk, -⟩ := exists_of_mem_textsOf ht
  have := (hcs c hc).kind
  rw [hk] at this
  simp at this

/-- Each line of repeatable comments at the top is inert. -/
theorem isInert_of_mem_top {cs : List Comment} (hcs : ∀ c ∈ cs, c.IsRepeatable) {l : Line}
    (hl : l ∈ top cs) : Line.IsInert l := by
  rw [top] at hl
  split at hl
  · exact absurd hl List.not_mem_nil
  · rcases List.mem_append.1 hl with hl | hl
    · obtain ⟨t, ht, hl⟩ := List.mem_flatMap.1 hl
      obtain ⟨c, hc, hk, rfl⟩ := exists_of_mem_textsOf ht
      exact (hcs c hc).above (by rw [hk]; decide) l hl
    · rw [List.mem_singleton.1 hl]
      exact Line.isInert_nil

end Comment

namespace Line

variable {cs : List Comment} {table : Option Text} {l : Line}

/-- The line of a table, with the comment of its field if it has one to take. -/
def ended (cs : List Comment) (table : Option Text) (l : Line) : Line :=
  match table, fieldName? (Text.trim l) with
  | some table, some field =>
    if Text.holds commentMark l then l
    else match Comment.inlineText? cs table field with
      | some comment => withComment l comment
      | none => l
  | _, _ => l

/-- A line takes a comment only if it is the line of a field without a mark. -/
theorem ended_cases (cs : List Comment) (table : Option Text) (l : Line) :
    ended cs table l = l ∨ ∃ c ∈ cs, c.kind = .inline ∧ (fieldName? (Text.trim l)).isSome ∧
      ended cs table l = withComment l c.text := by
  unfold ended
  split
  · next field hf =>
    split
    · exact .inl rfl
    · split
      · next hc =>
        obtain ⟨c, hmem, hk, -, rfl⟩ := Comment.exists_of_inlineText?_eq_some hc
        exact .inr ⟨c, hmem, hk, by rw [hf]; rfl, rfl⟩
      · exact .inl rfl
  · exact .inl rfl

theorem ended_of_holds (h : Text.holds commentMark l = true) : ended cs table l = l := by
  unfold ended
  split
  · rw [if_pos h]
  · rfl

/-- The end of a line does not change what the scan sees in it. -/
theorem continues_ended (hcs : ∀ c ∈ cs, c.IsRepeatable) (table : Option Text) (l : Line) :
    Continues l (ended cs table l) := by
  rcases ended_cases cs table l with heq | ⟨c, hc, hk, hf, heq⟩
  · rw [heq]
    exact .refl l
  · obtain ⟨field, hf⟩ := Option.isSome_iff_exists.1 hf
    obtain ⟨-, -, ho, hcl⟩ := (hcs c hc).inline hk
    rw [heq]
    exact continues_withComment hf ho hcl

/-- A line that has got its comment is left alone the second time. -/
theorem ended_ended (hcs : ∀ c ∈ cs, c.IsRepeatable) (table : Option Text) (l : Line) :
    ended cs table (ended cs table l) = ended cs table l := by
  rcases ended_cases cs table l with heq | ⟨c, hc, hk, -, heq⟩
  · rw [heq, heq]
  · rw [heq]
    exact ended_of_holds (holds_withComment ((hcs c hc).inline hk).1)

/-- A blank line is no field. -/
theorem ended_of_blank (h : isBlankLine l = true) : ended cs table l = l := by
  unfold ended
  rw [isBlankLine_iff.1 h]
  cases table <;> rfl

/-- A line that goes on as it was starts what it started. -/
theorem Continues.startKind?_eq {l l' : Line} (h : Continues l l') :
    startKind? l' = startKind? l := by
  rw [← map_kind_opened?, h.opened?_eq, map_kind_opened?]

/-- The comments that are put above a line, which are those of the table it is the header of. -/
def above (cs : List Comment) (l : Line) : List Line :=
  match tableHeader? (Text.trim l) with
  | some h => (Comment.textsOn cs .table h.table).flatMap Text.lines
  | none => []

theorem above_of_not_isTableHeader (h : ¬ IsTableHeader l) : above cs l = [] := by
  rw [above, Option.not_isSome_iff_eq_none.1 h]

end Line

/-! ## Scans -/

/-- What becomes of the lines that follow, if no comment is put inside of a body. -/
def TableScan.dressed (cs : List Comment) (s : TableScan) : List Line → List Line
  | [] => []
  | l :: ls => Line.above cs l ++ Line.ended cs (s.see l).table? l :: (s.pass l).dressed cs ls

namespace Merging

variable {m : Merging} {cs : List Comment}

/-- Only the header of a table has comments above it, whatever was read before. -/
theorem above_eq (hcs : ∀ c ∈ cs, c.IsRepeatable) (l : Line) : m.above cs l = Line.above cs l := by
  have hopening : ∀ m : Merging, (m.openingBody cs).1 = [] := fun m => by
    rw [openingBody]
    split
    · split
      · rfl
      · exact Comment.textsOn_field_eq_nil hcs _
    · rfl
  rw [above, hopening, List.append_nil, beforeHeader, Line.above]
  cases Line.tableHeader? (Text.trim l) <;> rfl

/-- The scan alone decides what becomes of the lines. -/
theorem flatMap_lines_dressings (hcs : ∀ c ∈ cs, c.IsRepeatable) (ls : List Line) :
    (m.dressings cs ls).flatMap Dressing.lines = m.scan.dressed cs ls := by
  induction ls generalizing m with
  | nil => rfl
  | cons l ls ih =>
    rw [dressings, List.flatMap_cons, ih, next_scan, Dressing.lines, above_eq hcs, kept_eq,
      List.append_assoc]
    rfl

end Merging

namespace TableScan

variable {s : TableScan} {cs : List Comment} {ls : List Line}

/-- Lines are dressed in two parts, the second from the table that the first leads to. -/
theorem dressed_append (cs : List Comment) (s : TableScan) (ls ls' : List Line) :
    s.dressed cs (ls ++ ls') = s.dressed cs ls ++ (s.after ls).dressed cs ls' := by
  induction ls generalizing s with
  | nil => rfl
  | cons l ls ih =>
    rw [List.cons_append, dressed, ih, dressed, List.append_assoc]
    rfl

/-- The scan is in no table, and no brace is open. -/
structure IsIdle (s : TableScan) : Prop where
  table?_eq : s.table? = none
  depth_eq : s.depth = 0

/-- Outside of the tables nothing happens to a line that is no header of one. -/
theorem dressed_of_idle (cs : List Comment) (hs : s.table? = none)
    (hls : ∀ l ∈ ls, ¬ Line.IsTableHeader l) :
    s.dressed cs ls = ls ∧ (s.after ls).table? = none := by
  induction ls generalizing s with
  | nil => exact ⟨rfl, hs⟩
  | cons l ls ih =>
    have hl := hls l List.mem_cons_self
    have hnone := Option.not_isSome_iff_eq_none.1 hl
    obtain ⟨hdressed, hafter⟩ := ih (pass_table?_of_idle hs hnone) fun k hk =>
      hls k (List.mem_cons_of_mem l hk)
    rw [dressed, Line.above_of_not_isTableHeader hl, see_of_none hnone, hs, hdressed, after_cons]
    exact ⟨rfl, hafter⟩

/-- In a table the fields take their comments, up to the line that closes it. -/
theorem dressed_of_table {table : Text} (hs : s.table? = some table)
    (hls : ∀ l ∈ ls, ¬ Line.IsTableHeader l)
    (hunclosed : Line.Along (fun d l => ¬ Line.ClosesAt d l) s.depth ls.dropLast) :
    s.dressed cs ls = ls.map (Line.ended cs (some table)) := by
  induction ls generalizing s with
  | nil => rfl
  | cons l ls ih =>
    have hl := hls l List.mem_cons_self
    have hsee := s.see_of_none (Option.not_isSome_iff_eq_none.1 hl)
    have hrest := fun k hk => hls k (List.mem_cons_of_mem l hk)
    rw [dressed, Line.above_of_not_isTableHeader hl, hsee, hs, List.nil_append, List.map_cons]
    refine congrArg _ ?_
    cases ls with
    | nil => rfl
    | cons k ls =>
      rw [List.dropLast_cons_cons, Line.Along.cons_iff] at hunclosed
      refine ih ?_ hrest ?_
      · rw [pass_table?_of_not_closesAt hunclosed.1, hsee, hs]
      · rw [pass_depth]
        exact hunclosed.2

end TableScan

/-! ## Blocks -/

namespace Block

/-- The block is whole and holds no table but itself. It is closed, unless it is a reference. -/
structure IsSelfContained (b : Block) : Prop where
  whole : b.IsWhole
  headers : ∀ l ∈ b.lines.tail, ¬ Line.IsTableHeader l
  closed : b.kind ≠ .ref → b.IsClosed

/-- The comments that are put above the block. -/
def above (cs : List Comment) (b : Block) : List Line :=
  match b.table with
  | some table => (Comment.textsOn cs .table table).flatMap Text.lines
  | none => []

/-- The block with the comments of its fields. -/
def dressed (cs : List Comment) (b : Block) : Block :=
  { b with lines := b.lines.map (Line.ended cs b.table) }

/-- Only the blocks of tables have a table. -/
theorem IsWhole.table_eq_none {b : Block} (hb : b.IsWhole) (hk : b.kind ≠ .table) :
    b.table = none := by
  obtain ⟨h, body, hspan⟩ := hb.span
  have hh := mt hspan.header.isTableHeader_iff.1 hk
  rw [hspan.header.table, Option.not_isSome_iff_eq_none.1 hh]
  rfl

theorem HeadedBy.above_eq {b : Block} {l : Line} (h : b.HeadedBy l) (cs : List Comment) :
    Line.above cs l = b.above cs := by
  rw [above, h.table, Line.above]
  cases Line.tableHeader? (Text.trim l) <;> rfl

end Block

namespace TableScan

variable {s : TableScan} {cs : List Comment} {b : Block}

/-- The line that closes a block leads out of the table. -/
theorem after_table?_of_isClosed (hs : s.depth = 0) (hb : b.IsClosed) :
    (s.after b.lines).table? = none := by
  obtain ⟨hbal, last, hlast, hcloses⟩ := hb
  obtain ⟨init, hinit⟩ := List.getLast?_eq_some_iff.1 hlast
  rw [hinit, Line.depthOf_append, Line.depthOf_cons, Line.depthOf_nil, Int.add_zero] at hbal
  rw [hinit, after_append, after_cons, after_nil, pass, finish_table?, see_depth, after_depth, hs,
    Int.zero_add, if_pos ⟨hbal, hcloses⟩]

/-- A block that is self-contained is dressed on its own. -/
theorem dressed_block (cs : List Comment) (hs : s.IsIdle) (hb : b.IsSelfContained) :
    s.dressed cs b.lines = b.above cs ++ (b.dressed cs).lines ∧ (s.after b.lines).IsIdle := by
  obtain ⟨h, body, hspan⟩ := hb.whole.span
  have hdepth : (s.after b.lines).depth = 0 := by
    rw [after_depth, hs.depth_eq, hb.whole.balanced]
    rfl
  have hbody : ∀ l ∈ body, ¬ Line.IsTableHeader l := by
    have := hb.headers
    rwa [hspan.lines] at this
  rw [← hspan.header.above_eq]
  cases hh : Line.tableHeader? (Text.trim h) with
  | none =>
    -- The scan enters no table, so that all lines stay as they are.
    have htable : b.table = none := by rw [hspan.header.table, hh]; rfl
    have hlines : ∀ l ∈ b.lines, ¬ Line.IsTableHeader l := by
      rw [hspan.lines, List.forall_mem_cons]
      exact ⟨by rw [Line.IsTableHeader, hh]; decide, hbody⟩
    obtain ⟨hdressed, hafter⟩ := dressed_of_idle cs hs.table?_eq hlines
    refine ⟨?_, hafter, hdepth⟩
    rw [hdressed, Line.above, hh, Block.dressed, htable]
    exact (List.map_id _).symm
  | some header =>
    -- The header enters the table, and the last line leaves it.
    have htable : b.table = some header.table := by rw [hspan.header.table, hh]; rfl
    have hsee : (s.see h).table? = some header.table := by rw [see_of_header hh, enter_table?]
    have hkind : b.kind = .table := hspan.header.isTableHeader_iff.1 (by
      rw [Line.IsTableHeader, hh]
      rfl)
    have hclosed := hb.closed (by rw [hkind]; decide)
    refine ⟨?_, after_table?_of_isClosed hs.depth_eq hclosed, hdepth⟩
    have hrest : (s.pass h).dressed cs body = body.map (Line.ended cs (some header.table)) := by
      cases body with
      | nil => rfl
      | cons l body =>
        have hunclosed := hspan.unclosed
        rw [hspan.lines, List.dropLast_cons_cons, Line.Along.cons_iff, ← hs.depth_eq] at hunclosed
        refine dressed_of_table ?_ hbody ?_
        · rw [pass_table?_of_not_closesAt hunclosed.1, hsee]
        · rw [pass_depth]
          exact hunclosed.2
    rw [Block.dressed, htable, hspan.lines, dressed, hsee, hrest, List.map_cons]

end TableScan

namespace Block

variable {b : Block} {cs : List Comment}

/-- A block is whole, and closed or not, whatever comments its fields take. -/
theorem IsWhole.dressed (hcs : ∀ c ∈ cs, c.IsRepeatable) (hb : b.IsWhole) :
    (b.dressed cs).IsWhole ∧ ((b.dressed cs).IsClosed ↔ b.IsClosed) := by
  obtain ⟨h, body, hspan⟩ := hb.span
  have hended := Line.continues_ended hcs b.table
  -- A comment at the end of a line changes neither its braces nor what it starts.
  have hdepth : ∀ ls, Line.depthOf (ls.map (Line.ended cs b.table)) = Line.depthOf ls := by
    intro ls
    rw [Line.depthOf, Line.depthOf, List.map_map]
    exact congrArg _ (List.map_congr_left fun l _ => (hended l).depthChange_eq)
  refine ⟨⟨⟨Line.ended cs b.table h, body.map (Line.ended cs b.table), ?_, ?_, ?_, ?_⟩, ?_⟩, ?_⟩
  · rw [Block.dressed, hspan.lines, List.map_cons]
  · refine ⟨?_, ?_, ?_⟩
    · rw [(hended h).startKind?_eq]
      exact hspan.header.kind
    · rw [(hended h).tableHeader?_eq]
      exact hspan.header.table
    · rw [(hended h).tableHeader?_eq]
      exact hspan.header.schema
  · rw [(hended h).depthChange_eq, Line.Along.map_iff (fun l => (hended l).depthChange_eq)]
    · exact hspan.inner
    · intro d l
      rw [Line.StartsNone, (hended l).startKind?_eq, Line.StartsNone]
  · rw [Block.dressed, ← List.map_dropLast, Line.Along.map_iff fun l => (hended l).depthChange_eq]
    · exact hspan.unclosed
    · intro d l
      rw [Line.ClosesAt, (hended l).depthChange_eq, (hended l).closes_eq, Line.ClosesAt]
  · exact (hdepth b.lines).trans hb.balanced
  · rw [IsClosed, IsClosed, Block.dressed, hdepth, List.getLast?_map]
    simp [(hended _).closes_eq]

/-- To dress a block a second time changes nothing. -/
theorem dressed_dressed (hcs : ∀ c ∈ cs, c.IsRepeatable) (b : Block) :
    (b.dressed cs).dressed cs = b.dressed cs := by
  rw [dressed, dressed, List.map_map]
  refine congrArg (fun lines => { b with lines }) (List.map_congr_left fun l _ => ?_)
  exact Line.ended_ended hcs b.table l

/-- It makes no difference whether the empty lines are squeezed before or after. -/
theorem squeezed_dressed (hcs : ∀ c ∈ cs, c.IsRepeatable) (b : Block) :
    (b.dressed cs).squeezed = b.squeezed.dressed cs := by
  rw [squeezed, dressed, Layout.squeeze_map (fun l => (Line.continues_ended hcs _ l).isBlankLine_eq)
    (Line.ended_of_blank rfl)]
  rfl

/-- Nor does it whether the lines are made neat before or after. -/
theorem neat_dressed (hcs : ∀ c ∈ cs, c.IsRepeatable) (b : Block) :
    (b.dressed cs).neat = b.neat.dressed cs := by
  rw [neat, dressed, Layout.neat_map (fun l => (Line.continues_ended hcs _ l).isBlankLine_eq)
    (Line.ended_of_blank rfl)]
  rfl

/-- Dressing blocks keeps all that the layout looks at. -/
theorem keeps_dressed (hcs : ∀ c ∈ cs, c.IsRepeatable) : Keeps (dressed cs) where
  kind _ := rfl
  rank? _ _ := rfl
  whole _ hb := (hb.dressed hcs).1
  padded b hb := by
    intro l' hl' hblank
    obtain ⟨l, hl, rfl⟩ := List.mem_map.1 hl'
    rw [(Line.continues_ended hcs b.table l).isBlankLine_eq] at hblank
    rw [Line.ended_of_blank hblank]
    exact hb l hl hblank

/-- A block stays self-contained if blank lines of it are changed. -/
theorem IsSelfContained.respaced (hb : b.IsSelfContained) {f : List Line → List Line}
    (hcons : ∀ {m : Line}, Line.isBlankLine m = false → ∀ ms, f (m :: ms) = m :: f ms)
    (hmem : ∀ {l : Line} {ls : List Line}, l ∈ f ls → l = [] ∨ l ∈ ls)
    (hf : ({ b with lines := f b.lines } : Block).IsWhole ∧
      (({ b with lines := f b.lines } : Block).IsClosed ↔ b.IsClosed)) :
    ({ b with lines := f b.lines } : Block).IsSelfContained := by
  refine ⟨hf.1, fun l hl => ?_, fun hk => hf.2.2 (hb.closed hk)⟩
  obtain ⟨m, ms, hlines, hm⟩ := hb.whole.exists_lines_eq
  have hheaders := hb.headers
  rw [hlines] at hheaders
  simp only [hlines, hcons hm, List.tail_cons] at hl
  rcases hmem hl with rfl | hl
  · exact nofun
  · exact hheaders l hl

/-- Squeezing a block leaves it complete in itself. -/
theorem IsSelfContained.squeezed (hb : b.IsSelfContained) : b.squeezed.IsSelfContained :=
  hb.respaced Layout.squeeze_cons_of_not_blank Layout.mem_squeeze hb.whole.squeezed

/-- Making a block neat does so as well. -/
theorem IsSelfContained.neat (hb : b.IsSelfContained) : b.neat.IsSelfContained :=
  hb.respaced Layout.neat_cons Layout.mem_neat hb.whole.neat

/-- A dressed block is still complete in itself. -/
theorem IsSelfContained.dressed (hcs : ∀ c ∈ cs, c.IsRepeatable) (hb : b.IsSelfContained) :
    (b.dressed cs).IsSelfContained := by
  obtain ⟨hwhole, hclosed⟩ := hb.whole.dressed hcs
  refine ⟨hwhole, fun l' hl' => ?_, fun hk => hclosed.2 (hb.closed hk)⟩
  rw [Block.dressed, ← List.map_tail] at hl'
  obtain ⟨l, hl, rfl⟩ := List.mem_map.1 hl'
  rw [Line.IsTableHeader, (Line.continues_ended hcs b.table l).tableHeader?_eq]
  exact hb.headers l hl

end Block

end DbmlRestore
