import DbmlRestore.Proofs.Block.Dressed
import DbmlRestore.Snapshot

/-!
# Restoring twice

A restored text is made of the comments of the header and of an *annotated* page
(`Sheet.annotated`): the page of the neat sheet, its fields dressed, with the comments of each table
above it (`Sheet.lines_merge_of_page`). The comments above are outside of the blocks, because what
stands before a table is closed. So the partition of the restored text finds the blocks of the
dressed sheet and none of these comments (`Sheet.ofText_of_annotated`), laying them out gives the
page of the dressed sheet, and merging puts the same comments above the tables once more.

This is to say that restoring a text a second time changes nothing (`Snapshot.restore_restore`),
for comments that are not inside of bodies and have neither headers nor braces, and for texts whose
blocks are self-contained.
-/

namespace DbmlRestore

namespace Block

variable {bs : List Block} {cs : List Comment} {a : Block → List Line}

/-! ## Annotated parts -/

/-- A part with lines above its blocks. -/
def annotated (a : Block → List Line) (bs : List Block) : List Line :=
  if bs.isEmpty then [] else bs.flatMap (fun b => a b ++ b.lines) ++ [[]]

/-- Where nothing is put above the blocks, the part is as it was. -/
theorem annotated_eq_part (h : ∀ b ∈ bs, a b = []) : annotated a bs = part bs := by
  have : bs.flatMap (fun b => a b ++ b.lines) = bs.flatMap (·.lines) :=
    List.flatMap_congr fun b hb => by rw [h b hb, List.nil_append]
  rw [annotated, part, this]

/-- Blocks that are closed are found again below inert lines. -/
theorem proper_run_annotated (hbs : ∀ b ∈ bs, b.IsWhole ∧ b.IsClosed)
    (ha : ∀ b ∈ bs, ∀ l ∈ a b, Line.IsInert l) (rest : List Line) (started : Bool) :
    proper (Partition.run ⟨none, 0, started⟩ (annotated a bs ++ rest)) =
      bs ++ proper (Partition.run ⟨none, 0, true⟩ rest) := by
  -- The empty line after the blocks is inert itself, so that it is enough to pass the blocks.
  have hrun : ∀ rest, proper (Partition.run ⟨none, 0, started⟩
      (bs.flatMap (fun b => a b ++ b.lines) ++ rest)) =
        bs ++ proper (Partition.run ⟨none, 0, true⟩ rest) := by
    intro rest
    induction bs generalizing started with
    | nil => exact Partition.proper_run_started _ _ _ _ _
    | cons b bs ih =>
      obtain ⟨hb, hc⟩ := hbs b List.mem_cons_self
      obtain ⟨_, _, hspan⟩ := hb.span
      rw [List.flatMap_cons, List.append_assoc, List.append_assoc,
        Partition.proper_run_inert (ha b List.mem_cons_self), Partition.run_closed rfl hb hc,
        proper_append, proper_cons hspan.header.kind_ne_other,
        ih (fun c hc => hbs c (List.mem_cons_of_mem b hc))
          (fun c hc => ha c (List.mem_cons_of_mem b hc))]
      rfl
  cases bs with
  | nil => exact Partition.proper_run_started _ _ _ _ _
  | cons b bs =>
    rw [annotated, List.isEmpty_cons, if_neg Bool.false_ne_true, List.append_assoc, hrun,
      List.singleton_append, Partition.proper_run_nil_cons]

/-- Closed blocks need no gap. -/
theorem gapped_eq_self (hbs : ∀ b ∈ bs, b.IsClosed) : gapped bs = bs := by
  induction bs with
  | nil => rfl
  | cons b bs ih =>
    have hrest := ih fun c hc => hbs c (List.mem_cons_of_mem b hc)
    cases bs with
    | nil => exact congrArg (fun c => [c]) (if_pos (hbs b List.mem_cons_self))
    | cons c bs => exact congrArg (List.cons b) hrest

/-- What is put above a block is inert. -/
theorem isInert_of_mem_above (hcs : ∀ c ∈ cs, c.IsRepeatable) {b : Block} {l : Line}
    (hl : l ∈ b.above cs) : Line.IsInert l := by
  rw [above] at hl
  split at hl
  · obtain ⟨t, ht, hl⟩ := List.mem_flatMap.1 hl
    obtain ⟨c, hc, hk, -, rfl⟩ := Comment.exists_of_mem_textsOn ht
    exact (hcs c hc).above (by rw [hk]; decide) l hl
  · exact absurd hl List.not_mem_nil

end Block

namespace TableScan

variable {s : TableScan} {bs : List Block}

/-- Blocks that are complete in themselves are dressed one by one, and the scan is idle between
    them. -/
theorem dressed_flatMap (cs : List Comment) (hs : s.IsIdle) (hbs : ∀ b ∈ bs, b.IsSelfContained) :
    s.dressed cs (bs.flatMap (·.lines)) =
        (bs.map (Block.dressed cs)).flatMap (fun b => b.above cs ++ b.lines) ∧
      (s.after (bs.flatMap (·.lines))).IsIdle := by
  induction bs generalizing s with
  | nil => exact ⟨rfl, hs⟩
  | cons b bs ih =>
    obtain ⟨hdressed, hafter⟩ := dressed_block cs hs (hbs b List.mem_cons_self)
    obtain ⟨hrest, hend⟩ := ih hafter fun c hc => hbs c (List.mem_cons_of_mem b hc)
    rw [List.flatMap_cons, dressed_append, after_append, hdressed, hrest, List.map_cons,
      List.flatMap_cons]
    exact ⟨rfl, hend⟩

/-- Blank lines outside of the tables stay as they are. -/
theorem dressed_of_blank (cs : List Comment) {ls : List Line} (hs : s.IsIdle)
    (hls : ∀ l ∈ ls, Line.isBlankLine l = true) :
    s.dressed cs ls = ls ∧ (s.after ls).IsIdle := by
  have hnone : ∀ l ∈ ls, ¬ Line.IsTableHeader l := fun l hl =>
    Line.IsQuiet.not_isTableHeader (.inl (Line.isBlankLine_iff.1 (hls l hl)))
  obtain ⟨hdressed, hafter⟩ := dressed_of_idle cs hs.table?_eq hnone
  refine ⟨hdressed, hafter, ?_⟩
  rw [after_depth, ← Line.depthOf_inked, Line.inked_eq_nil hls, hs.depth_eq]
  rfl

/-- A part is dressed block by block. -/
theorem dressed_part (cs : List Comment) (hs : s.IsIdle) (hbs : ∀ b ∈ bs, b.IsSelfContained) :
    s.dressed cs (Block.part bs) = Block.annotated (Block.above cs) (bs.map (Block.dressed cs)) ∧
      (s.after (Block.part bs)).IsIdle := by
  cases bs with
  | nil => exact ⟨rfl, hs⟩
  | cons b bs =>
    obtain ⟨hdressed, hafter⟩ := dressed_flatMap cs hs hbs
    have hempty : ∀ l ∈ ([[]] : List Line), Line.isBlankLine l = true := by decide
    obtain ⟨hgap, hend⟩ := dressed_of_blank cs hafter hempty
    rw [Block.part, List.isEmpty_cons, if_neg Bool.false_ne_true, dressed_append, after_append,
      hdressed, hgap]
    exact ⟨rfl, hend⟩

end TableScan

namespace Sheet

open Block

variable {order : List TableEntry} {cs : List Comment} {s : Sheet} {t : Text}

/-- The sheet with the comments of the fields. -/
def dressed (cs : List Comment) (s : Sheet) : Sheet :=
  s.endwise (Block.dressed cs) (Block.dressed cs)

/-- The page of a sheet with the comments above the tables. -/
def annotated (cs : List Comment) (s : Sheet) : List Line :=
  s.margin ++ (Block.annotated (above cs) s.enums ++
    (Block.annotated (above cs) s.tables ++ Block.annotated (above cs) s.refs))

/-- The sheet is sound, and its blocks are self-contained. -/
structure IsSelfContained (order : List TableEntry) (s : Sheet) : Prop where
  sound : s.IsSound order
  enums : ∀ b ∈ s.enums, b.IsSelfContained
  tables : ∀ b ∈ s.tables, b.IsSelfContained
  refs : ∀ b ∈ s.refs, b.IsSelfContained

/-- What keeps blocks complete in themselves keeps a sheet so. -/
theorem IsSelfContained.endwise (hs : s.IsSelfContained order) {f g : Block → Block} (hf : Keeps f)
    (hg : Keeps g) (hf' : ∀ b : Block, b.IsSelfContained → (f b).IsSelfContained)
    (hg' : ∀ b : Block, b.IsSelfContained → (g b).IsSelfContained) :
    (s.endwise f g).IsSelfContained order := by
  have hpart : ∀ bs : List Block, (∀ b ∈ bs, b.IsSelfContained) →
      ∀ b ∈ Block.endwise f g bs, b.IsSelfContained := by
    intro bs hbs c hc
    obtain ⟨b, hb, rfl | rfl⟩ := mem_endwise hc
    · exact hf' b (hbs b hb)
    · exact hg' b (hbs b hb)
  exact ⟨hs.sound.endwise hf hg, hpart _ hs.enums, hpart _ hs.tables, hpart _ hs.refs⟩

theorem IsSelfContained.neat (hs : s.IsSelfContained order) : s.neat.IsSelfContained order :=
  hs.endwise keeps_squeezed keeps_neat (fun _ hb => hb.squeezed) fun _ hb => hb.neat

theorem IsSelfContained.dressed (hcs : ∀ c ∈ cs, c.IsRepeatable) (hs : s.IsSelfContained order) :
    (s.dressed cs).IsSelfContained order :=
  hs.endwise (keeps_dressed hcs) (keeps_dressed hcs) (fun _ hb => hb.dressed hcs)
    fun _ hb => hb.dressed hcs

/-- To dress a sheet a second time changes nothing. -/
theorem dressed_dressed (hcs : ∀ c ∈ cs, c.IsRepeatable) (s : Sheet) :
    (s.dressed cs).dressed cs = s.dressed cs := by
  have hcomp : Block.dressed cs ∘ Block.dressed cs = Block.dressed cs :=
    funext (Block.dressed_dressed hcs)
  simp only [dressed, endwise, endwise_endwise, hcomp]

/-- A dressed sheet that was neat is so when it is read again. -/
theorem neat_gapped_dressed_neat (hcs : ∀ c ∈ cs, c.IsRepeatable) (s : Sheet) :
    (s.neat.dressed cs).gapped.neat = s.neat.dressed cs := by
  have hsqueezed : squeezed ∘ id ∘ Block.dressed cs ∘ squeezed = Block.dressed cs ∘ squeezed := by
    funext b
    show (b.squeezed.dressed cs).squeezed = b.squeezed.dressed cs
    rw [squeezed_dressed hcs, squeezed_squeezed]
  have hneat : Block.neat ∘ withGap ∘ Block.dressed cs ∘ Block.neat =
      Block.dressed cs ∘ Block.neat := by
    funext b
    show (b.neat.dressed cs).withGap.neat = b.neat.dressed cs
    rw [neat_withGap, neat_dressed hcs, neat_neat]
  simp only [neat, gapped, dressed, endwise, endwise_endwise, hsqueezed, hneat]

/-- Merging dresses the sheet of a page, and puts comments above its tables. -/
theorem lines_merge_of_page (hcs : ∀ c ∈ cs, c.IsRepeatable) (hs : s.IsSelfContained order)
    (ht : Text.lines t = s.page) :
    Text.lines (Comment.merge cs t) = Comment.top cs ++ (s.dressed cs).annotated cs := by
  have hstart : Merging.start.scan.IsIdle := ⟨rfl, rfl⟩
  obtain ⟨hmargin, hscan⟩ := TableScan.dressed_of_blank cs hstart fun l hl =>
    nil_of_mem_margin (s := s) hl ▸ rfl
  obtain ⟨henums, hscan⟩ := TableScan.dressed_part cs hscan hs.enums
  obtain ⟨htables, hscan⟩ := TableScan.dressed_part cs hscan hs.tables
  obtain ⟨hrefs, -⟩ := TableScan.dressed_part cs hscan hs.refs
  rw [Comment.lines_merge_of_newline_not_mem fun c hc hk => ((hcs c hc).inline hk).2.1,
    Merging.flatMap_lines_dressings hcs, Comment.bottom_eq_nil hcs, List.append_nil, ht, page,
    TableScan.dressed_append, TableScan.dressed_append, TableScan.dressed_append, hmargin, henums,
    htables, hrefs, annotated, dressed, margin_endwise, endwise, endwise_self, endwise_self,
    endwise_self]

/-- The sheet of an annotated page is the sheet, with the empty line that the references take. -/
theorem ofText_of_annotated (hcs : ∀ c ∈ cs, c.IsRepeatable) (hs : s.IsSelfContained order)
    (ht : Text.lines t = Comment.top cs ++ s.annotated cs) : ofText order t = s.gapped := by
  refine ofText_of_proper hs.sound.gapped ?_
  -- Comments are put above tables only, and whatever stands before a table is closed.
  have habove : ∀ bs : List Block, ∀ b ∈ bs, ∀ l ∈ above cs b, Line.IsInert l :=
    fun _ _ _ _ hl => isInert_of_mem_above hcs hl
  have hmargin : ∀ l ∈ s.margin, Line.IsInert l := fun l hl =>
    nil_of_mem_margin hl ▸ Line.isInert_nil
  have henums : ∀ b ∈ s.enums, b.IsWhole ∧ b.IsClosed := fun b hb =>
    ⟨hs.sound.enums.whole b hb, (hs.enums b hb).closed (by
      rw [hs.sound.enums.kind b hb]
      decide)⟩
  have htables : ∀ b ∈ s.tables, b.IsWhole ∧ b.IsClosed := fun b hb =>
    ⟨hs.sound.tables.whole b hb, (hs.tables b hb).closed (by
      rw [hs.sound.tables.kind b hb]
      decide)⟩
  have hrefs : ∀ b ∈ s.refs, above cs b = [] := fun b hb => by
    rw [above, (hs.sound.refs.whole b hb).table_eq_none (by
      rw [hs.sound.refs.kind b hb]
      decide)]
  rw [partition, ht, Partition.start, Partition.proper_run_inert fun l hl =>
      Comment.isInert_of_mem_top hcs hl, annotated, Partition.proper_run_inert hmargin,
    proper_run_annotated henums (habove _), proper_run_annotated htables (habove _),
    annotated_eq_part hrefs, proper_run_last_part hs.sound.refs.whole]
  show _ = Block.gapped s.enums ++ (Block.gapped s.tables ++ Block.gapped s.refs)
  rw [gapped_eq_self fun b hb => (henums b hb).2, gapped_eq_self fun b hb => (htables b hb).2]

/-- The sheet of a sound text with closed blocks is complete in itself, if no block has a header
    inside. -/
theorem isSelfContained_ofText (hs : (ofText order t).IsSound order)
    (hclosed : ∀ b ∈ partition t, b.kind = .enum ∨ b.kind = .table → b.IsClosed)
    (hheaders : ∀ b ∈ partition t, b.kind ≠ .other → ∀ l ∈ b.lines.tail, ¬ Line.IsTableHeader l) :
    (ofText order t).IsSelfContained order := by
  have hblock : ∀ b ∈ partition t, b.kind ≠ .other → b.IsWhole → b.IsSelfContained := by
    intro b hb hk hwhole
    refine ⟨hwhole, hheaders b hb hk, fun href => hclosed b hb ?_⟩
    cases hkind : b.kind with
    | enum => exact .inl rfl
    | table => exact .inr rfl
    | ref => exact absurd hkind href
    | other => exact absurd hkind hk
  have hpart : ∀ {kind : BlockKind} {bs : List Block}, ArePart kind bs → kind ≠ .other →
      (∀ b ∈ bs, b ∈ partition t) → ∀ b ∈ bs, b.IsSelfContained := fun h hk hmem b hb =>
    hblock b (hmem b hb) (by rwa [h.kind b hb]) (h.whole b hb)
  refine ⟨hs, hpart hs.enums (by decide) fun b hb => ?_, hpart hs.tables (by decide) fun b hb => ?_,
    hpart hs.refs (by decide) fun b hb => ?_⟩
  · exact List.mem_of_mem_filter hb
  · exact List.mem_of_mem_filter ((List.mergeSort_perm _ _).mem_iff.1 hb)
  · exact List.mem_of_mem_filter hb

end Sheet

/-- Restoring a text twice is restoring it once. The comments are of the header, of tables or at the
    end of lines; above a line they have neither braces nor headers, and at the end of one they have
    the mark of a comment, but no brace and no line feed. The braces of the text balance, and it has
    no blank but the space, the tab, the carriage return and the line feed. Its enums and tables are
    closed, and the only header of a table inside of a block is the first line of a table. -/
theorem Snapshot.restore_restore {s : Snapshot} {t : Text} (hcs : ∀ c ∈ s.comments, c.IsRepeatable)
    (hblank : t.HasPlainBlanks) (hbal : Line.depthOf (Text.lines t) = 0)
    (hclosed : ∀ b ∈ Block.partition t, b.kind = .enum ∨ b.kind = .table → b.IsClosed)
    (hheaders : ∀ b ∈ Block.partition t, b.kind ≠ .other →
      ∀ l ∈ b.lines.tail, ¬ Line.IsTableHeader l) :
    s.restore (s.restore t) = s.restore t := by
  have hsound := Sheet.isSound_ofText hbal (Layout.isPadded_lines hblank) s.order
  have hs := Sheet.isSelfContained_ofText hsound hclosed hheaders
  have hdressed := hs.neat.dressed hcs
  have hpage := Block.lines_reorder hs.sound
  have hrestored : Text.lines (s.restore t) = _ := Sheet.lines_merge_of_page hcs hs.neat hpage
  -- The second time the page is that of the dressed sheet, which takes the same comments.
  have hsheet := Sheet.ofText_of_annotated hcs hdressed hrestored
  have hpage' := Block.lines_reorder (hsheet ▸ hdressed.sound.gapped)
  rw [hsheet, Sheet.neat_gapped_dressed_neat hcs] at hpage'
  have htwice : Text.lines (s.restore (s.restore t)) = _ :=
    Sheet.lines_merge_of_page hcs hdressed hpage'
  rw [← Text.lines_inj, htwice, hrestored, Sheet.dressed_dressed hcs]

/-- A comment of two lines above a table that is moved, and a comment at the end of a line that does
    not start with the mark. -/
theorem Snapshot.restore_restore_moved :
    let s : Snapshot := ⟨[⟨"b".toList, none⟩, ⟨"a".toList, none⟩],
      [.header "// h".toList, .onTable "// t\n/* u */".toList (some "a".toList),
        .inline "x // i".toList (some "a".toList) (some "id".toList)]⟩
    let t := ("Enum e \x7b\n\x7d\nTable a \x7b\n\n\n  \"id\" int\r\n\x7d\nstray\n" ++
      "Table b \x7b\x7d\nRef: a.id > b.id\n\n").toList
    (∀ c ∈ s.comments, c.IsRepeatable) ∧ s.restore (s.restore t) = s.restore t := by
  intro s t
  have hcs : ∀ c ∈ s.comments, c.IsRepeatable := by decide +kernel
  refine ⟨hcs, restore_restore hcs ?_ ?_ ?_ ?_⟩
  all_goals decide +kernel

end DbmlRestore
