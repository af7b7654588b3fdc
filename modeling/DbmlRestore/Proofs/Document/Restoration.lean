import DbmlRestore.Proofs.Block.Reorder
import DbmlRestore.Proofs.Document.Comments
import DbmlRestore.Proofs.TableOrder
import DbmlRestore.Snapshot

/-!
# Restoring a document

A document that was regenerated, that is, lost its comments and had its tables put into
some other order, is restored exactly (`Document.preserve_text`): its blocks are its
enums, tables and references (`Document.ofKind_regenerated`), sorting finds the order of
its tables (`Document.sortByRank_blocks`), and laying them out gives the document without
its comments (`Document.reorder_regenerated`), into which the comments are merged.
-/

namespace DbmlRestore

/-! ## The table order -/

/-- The entry of a table in a table order. -/
def TableText.entry (t : TableText) : TableEntry := ⟨t.name, t.schema⟩

namespace Document

variable (d : Document)

/-- The table order that is read off a document is that of its tables. -/
theorem extract_order : TableEntry.extract d.text = d.tables.map (·.entry) := by
  -- Of the lines of a table, only the first one is a header.
  have htable : ∀ t : TableText, t.lines.filterMap
      (fun l => (Line.tableHeader? (Text.trim l)).map TableEntry.ofHeader) = [t.entry] := by
    intro t
    have hfields : (t.fields.map (·.line) ++ [Line.close]).filterMap
        (fun l => (Line.tableHeader? (Text.trim l)).map TableEntry.ofHeader) = [] := by
      refine List.filterMap_eq_nil_iff.2 fun l hl => ?_
      rcases List.mem_append.1 hl with hl | hl
      · obtain ⟨f, -, rfl⟩ := List.mem_map.1 hl
        rw [f.tableHeader?_line]
        rfl
      · rw [List.mem_singleton.1 hl]
        rfl
    rw [TableText.lines, List.cons_append, List.filterMap_cons, hfields, t.tableHeader?_header]
    rfl
  have hnone : ∀ {ls : List Line}, (∀ l ∈ ls, Line.tableHeader? (Text.trim l) = none) →
      ls.filterMap (fun l => (Line.tableHeader? (Text.trim l)).map TableEntry.ofHeader) = [] :=
    fun h => List.filterMap_eq_nil_iff.2 fun l hl => by rw [h l hl]; rfl
  -- Comments are no headers, so that they can be left out.
  rw [← d.merge_bareText, Comment.extract_merge_order fun c hc => d.isPlain_of_mem_comments hc,
    TableEntry.extract, d.lines_bareText, bareLines, List.filterMap_append, List.filterMap_append,
    List.filterMap_append, hnone fun l hl => d.tableHeader?_of_mem_enumLines hl,
    hnone fun l hl => d.tableHeader?_of_mem_refLines hl, List.filterMap_flatMap]
  simp only [htable]
  rw [List.map_eq_flatMap]
  simp [Text.trim, Text.dropEndWhile, Line.tableHeader?, Line.afterWord?]

end Document

/-! ## The blocks -/

/-- The block of an enum. -/
def EnumText.block (e : EnumText) : Block := { kind := .enum, lines := e.lines }

/-- The block of a table. -/
def TableText.block (t : TableText) : Block :=
  { kind := .table, lines := t.lines, table := some t.name, schema := t.schema }

namespace Partition

variable {started : Bool} {rest : List Line}

/-- The lines of an enum are read as its block, after which the text goes on at depth zero. -/
theorem run_enumText (e : EnumText) :
    run ⟨none, 0, started⟩ (e.lines ++ rest) = e.block :: run ⟨none, 0, true⟩ rest := by
  have hvalues : ∀ l ∈ e.values.map EnumText.valueLine, Line.opens l = 0 ∧ Line.closes l = 0 :=
    fun l hl => by
      obtain ⟨v, hv, rfl⟩ := List.mem_map.1 hl
      exact EnumText.braces_valueLine (e.areNames v hv)
  have h := run_block (p := ⟨none, 0, started⟩) Line.close rfl rfl e.opened?_header
    e.braces_header.1 e.braces_header.2 hvalues rfl rfl rest
  rw [EnumText.lines, List.append_assoc, List.singleton_append, h]
  rfl

/-- The lines of a table are read as its block in the same way. -/
theorem run_tableText (t : TableText) :
    run ⟨none, 0, started⟩ (t.lines ++ rest) = t.block :: run ⟨none, 0, true⟩ rest := by
  have hfields : ∀ l ∈ t.fields.map (·.line), Line.opens l = 0 ∧ Line.closes l = 0 :=
    fun l hl => by
      obtain ⟨f, -, rfl⟩ := List.mem_map.1 hl
      exact f.braces_line
  have h := run_block (p := ⟨none, 0, started⟩) Line.close rfl rfl t.opened?_header
    t.braces_header.1 t.braces_header.2 hfields rfl rfl rest
  rw [TableText.lines, List.append_assoc, List.singleton_append, h]
  rfl

/-- Parts of a text that are blocks are found one after the other. -/
theorem ofKind_run_blocks {α : Type} {lines : α → List Line} {block : α → Block}
    (hblock : ∀ a started rest,
      run ⟨none, 0, started⟩ (lines a ++ rest) = block a :: run ⟨none, 0, true⟩ rest)
    {k : BlockKind} (hk : k ≠ .other) (as : List α) (started : Bool) (rest : List Line) :
    Block.ofKind (run ⟨none, 0, started⟩ (as.flatMap lines ++ rest)) k =
      Block.ofKind (as.map block) k ++ Block.ofKind (run ⟨none, 0, started⟩ rest) k := by
  induction as generalizing started with
  | nil => rfl
  | cons a as ih =>
    rw [List.flatMap_cons, List.append_assoc, hblock, List.map_cons,
      ← List.singleton_append, ofKind_append, ih, ← List.append_assoc, ← ofKind_append,
      ofKind_run_started hk none 0 true started]
    rfl

/-- References, of which the last takes the empty lines that follow. -/
theorem exists_run_refTexts (refs : List RefText) (hne : refs ≠ []) (n : Nat) :
    ∃ bs : List Block, run ⟨none, 0, false⟩ (refs.map (·.line) ++ List.replicate n []) = bs ∧
      (∀ b ∈ bs, b.kind = .ref) ∧ bs ≠ [] ∧
      bs.flatMap (·.lines) = refs.map (·.line) ++ List.replicate n [] := by
  obtain ⟨refs, last, rfl⟩ := (List.eq_nil_or_concat refs).resolve_left hne
  have hrefs : ∀ r ∈ refs.map (·.line) ++ [last.line],
      Block.opened? (Text.trim r) = some { kind := .ref, lines := [] } ∧
        Line.opens r = 0 ∧ Line.closes r = 0 := fun r hr => by
    rcases List.mem_append.1 hr with hr | hr
    · obtain ⟨q, -, rfl⟩ := List.mem_map.1 hr
      exact ⟨q.opened?_line, q.braces_line⟩
    · rw [List.mem_singleton.1 hr]
      exact ⟨last.opened?_line, last.braces_line⟩
  have hrun := run_refs (p := ⟨none, 0, false⟩) rfl hrefs n
  rw [List.concat_eq_append, List.map_append, List.append_assoc]
  refine ⟨_, hrun, fun b hb => ?_, by simp, ?_⟩
  · rcases List.mem_append.1 hb with hb | hb
    · obtain ⟨_, -, rfl⟩ := List.mem_map.1 hb
      rfl
    · rw [List.mem_singleton.1 hb]
  · rw [List.map_map, flush, Option.toList_none, List.nil_append, List.flatMap_append,
      List.flatMap_map, List.flatMap_singleton, List.map_eq_flatMap]
    rfl

end Partition

/-- Blocks of one kind are all or none of the blocks of a kind. -/
theorem Block.ofKind_of_forall {bs : List Block} {k : BlockKind} (h : ∀ b ∈ bs, b.kind = k)
    (k' : BlockKind) : ofKind bs k' = if k = k' then bs else [] := by
  split
  · next hk => exact List.filter_eq_self.2 fun b hb => decide_eq_true (hk ▸ h b hb)
  · next hk => exact List.filter_eq_nil_iff.2 fun b hb => by rwa [h b hb, decide_eq_true_eq]

namespace Document

variable (d : Document)

/-- The blocks of the enums are of this kind, and of no other. -/
theorem ofKind_enums (k : BlockKind) : Block.ofKind (d.enums.map (·.block)) k =
    if .enum = k then d.enums.map (·.block) else [] :=
  Block.ofKind_of_forall (fun b hb => by obtain ⟨_, -, rfl⟩ := List.mem_map.1 hb; rfl) k

theorem ofKind_tables (tables : List TableText) (k : BlockKind) :
    Block.ofKind (tables.map (·.block)) k = if .table = k then tables.map (·.block) else [] :=
  Block.ofKind_of_forall (fun b hb => by obtain ⟨_, -, rfl⟩ := List.mem_map.1 hb; rfl) k

/-- The blocks of a regenerated text of a kind are those of its enums, of its tables and of
    its references. -/
theorem ofKind_regenerated {k : BlockKind} (hk : k ≠ .other) (tables : List TableText)
    (before between after atEnd : Nat) :
    Block.ofKind (Partition.start.run
        (d.regeneratedLines tables before between after atEnd)) k =
      Block.ofKind (d.enums.map (·.block)) k ++ (Block.ofKind (tables.map (·.block)) k ++
        Block.ofKind (Partition.start.run
          (d.refs.map (·.line) ++ List.replicate atEnd [])) k) := by
  have henums := Partition.ofKind_run_blocks (fun e _ _ => Partition.run_enumText e) hk d.enums
    false
  have htables := Partition.ofKind_run_blocks (fun t _ _ => Partition.run_tableText t) hk tables
    false
  simp only [regeneratedLines, List.append_assoc]
  rw [Partition.ofKind_run_replicate_nil hk rfl]
  refine (henums _).trans ?_
  rw [Partition.ofKind_run_replicate_nil hk rfl]
  refine congrArg _ ((htables _).trans ?_)
  rw [Partition.ofKind_run_replicate_nil hk rfl]
  rfl

/-! ## Sorting and laying out -/

/-- The rank of a block of a table is that of the names of the table. -/
theorem rank?_block (t : TableText) (index : OrderIndex) :
    t.block.rank? index = OrderIndex.rank? index t.entry.qualified t.entry.table := rfl

/-- A table of a document has its position as its rank. -/
theorem rank?_getElem {i : Nat} (hi : i < d.tables.length) :
    d.tables[i].block.rank? (OrderIndex.ofOrder (d.tables.map (·.entry))) = some i := by
  have hsplit : d.tables.map (·.entry) =
      (d.tables.take i).map (·.entry) ++
        d.tables[i].entry :: (d.tables.drop (i + 1)).map (·.entry) := by
    rw [← List.map_cons, ← List.map_append, List.getElem_cons_drop, List.take_append_drop]
  have hn : ((d.tables.map (·.entry)).map (·.table)).Nodup := by
    rw [List.map_map]
    exact d.nodup
  have hdot : ∀ e ∈ d.tables.map (·.entry), '.' ∉ e.table := fun e he => by
    obtain ⟨u, -, rfl⟩ := List.mem_map.1 he
    exact u.noDot
  rw [hsplit] at hn hdot ⊢
  rw [rank?_block, OrderIndex.rank?_ofOrder hn hdot, List.length_map, List.length_take,
    Nat.min_eq_left (Nat.le_of_lt hi)]

/-- Tables find the order of the document. -/
theorem sortByRank_blocks {tables : List TableText} (hperm : tables.Perm d.tables) :
    Block.sortByRank (OrderIndex.ofOrder (d.tables.map (·.entry))) (tables.map (·.block)) =
      d.tables.map (·.block) := by
  refine Block.sortByRank_eq_of_perm (hperm.map _) ?_
  rw [List.pairwise_map, List.pairwise_iff_getElem]
  intro i j hi hj hij
  rw [d.rank?_getElem hi, d.rank?_getElem hj]
  exact decide_eq_false (Nat.not_le.2 hij)

/-! ## Tidying -/

/-- The lines of a document without its comments, but for the last one. -/
def coreLines : List Line := d.enumLines ++ d.tables.flatMap (·.lines) ++ d.refLines

theorem isBlankLine_of_opened? {l : Line} {b : Block} (h : Block.opened? (Text.trim l) = some b) :
    Line.isBlankLine l = false := by
  refine Line.isBlankLine_eq_false_iff.2 fun he => ?_
  rw [he] at h
  exact nomatch h

theorem isBlankLine_of_mem_enum {e : EnumText} {l : Line} (hl : l ∈ e.lines) :
    Line.isBlankLine l = false := by
  simp only [EnumText.lines, List.mem_append, List.mem_cons, List.mem_map, List.not_mem_nil,
    or_false] at hl
  rcases hl with (rfl | ⟨v, -, rfl⟩) | rfl
  · exact isBlankLine_of_opened? e.opened?_header
  · exact (Line.of_trim_eq_quote (EnumText.trim_valueLine v)).2.2.2
  · rfl

theorem isBlankLine_of_mem_table {t : TableText} {l : Line} (hl : l ∈ t.lines) :
    Line.isBlankLine l = false := by
  simp only [TableText.lines, List.mem_append, List.mem_cons, List.mem_map, List.not_mem_nil,
    or_false] at hl
  rcases hl with (rfl | ⟨f, -, rfl⟩) | rfl
  · exact isBlankLine_of_opened? t.opened?_header
  · exact (Line.of_trim_eq_quote (l := f.line) f.exists_trim_line.choose_spec).2.2.2
  · rfl

theorem isBlankLine_of_mem_tables {l : Line} (hl : l ∈ d.tables.flatMap (·.lines)) :
    Line.isBlankLine l = false := by
  obtain ⟨t, -, hl⟩ := List.mem_flatMap.1 hl
  exact isBlankLine_of_mem_table hl

theorem isBlankLine_of_mem_refs {l : Line} (hl : l ∈ d.refs.map (·.line)) :
    Line.isBlankLine l = false := by
  obtain ⟨r, -, rfl⟩ := List.mem_map.1 hl
  exact isBlankLine_of_opened? r.opened?_line

theorem flatMap_tables_ne_nil : d.tables.flatMap (·.lines) ≠ [] := by
  obtain ⟨t, ts, ht⟩ := List.exists_cons_of_ne_nil d.tables_ne_nil
  rw [ht, List.flatMap_cons, TableText.lines]
  exact List.cons_ne_nil _ _

/-- The parts of a document are apart by one empty line, and none of them has another. -/
theorem spaced_coreLines : Layout.Spaced d.coreLines := by
  have hrest : Layout.Spaced (d.tables.flatMap (·.lines) ++ d.refLines) := by
    rw [refLines]
    split
    · rw [List.append_nil]
      exact Layout.spaced_of_forall fun l hl => d.isBlankLine_of_mem_tables hl
    · exact Layout.Spaced.append_nil (fun l hl => d.isBlankLine_of_mem_tables hl)
        (Layout.spaced_of_forall fun l hl => d.isBlankLine_of_mem_refs hl)
        fun l hl => d.isBlankLine_of_mem_refs (List.mem_of_mem_head? hl)
  rw [coreLines, enumLines, List.append_assoc]
  split
  · exact hrest
  · rw [List.append_assoc, List.singleton_append]
    refine Layout.Spaced.append_nil (fun l hl => ?_) hrest fun l hl => ?_
    · obtain ⟨e, -, hl⟩ := List.mem_flatMap.1 hl
      exact isBlankLine_of_mem_enum hl
    · rw [List.head?_append_of_ne_nil _ d.flatMap_tables_ne_nil] at hl
      exact d.isBlankLine_of_mem_tables (List.mem_of_mem_head? hl)

/-- The last line of the last part is not blank. -/
theorem getLast?_coreLines {l : Line} (hl : l ∈ d.coreLines.getLast?) :
    Line.isBlankLine l = false := by
  rw [coreLines, refLines] at hl
  split at hl
  · rw [List.append_nil, List.getLast?_append_of_ne_nil _ d.flatMap_tables_ne_nil] at hl
    exact d.isBlankLine_of_mem_tables (List.mem_of_getLast? hl)
  · next hne =>
    have hne' : d.refs.map (·.line) ≠ [] := fun he =>
      hne (List.isEmpty_iff.2 (List.map_eq_nil_iff.1 he))
    rw [List.getLast?_append_of_ne_nil _ (List.cons_ne_nil _ _),
      ← List.singleton_append, List.getLast?_append_of_ne_nil _ hne'] at hl
    exact d.isBlankLine_of_mem_refs (List.mem_of_getLast? hl)

theorem coreLines_ne_nil : d.coreLines ≠ [] := by
  rw [coreLines]
  simp [d.flatMap_tables_ne_nil]

/-! ## The whole document -/

section Regenerated

variable {tables : List TableText} (hperm : tables.Perm d.tables)
  (before between after atEnd : Nat)
include hperm

/-- The lines of a regenerated text hold no line feed. -/
theorem lines_regenerated :
    Text.lines (Text.unlines (d.regeneratedLines tables before between after atEnd)) =
      d.regeneratedLines tables before between after atEnd := by
  refine Text.lines_unlines_of_forall ?_ fun l hl => ?_
  · obtain ⟨t, ts, ht⟩ := List.exists_cons_of_ne_nil d.tables_ne_nil
    have hmem : t ∈ tables := hperm.mem_iff.2 (ht ▸ List.mem_cons_self)
    refine List.ne_nil_of_mem (a := t.header) ?_
    simp only [regeneratedLines, List.mem_append, List.mem_flatMap]
    exact .inl (.inl (.inl (.inr ⟨t, hmem, List.mem_cons_self⟩)))
  · simp only [regeneratedLines, TableText.lines, List.mem_append, List.mem_flatMap, List.mem_cons,
      List.mem_map, List.not_mem_nil, or_false, List.mem_replicate] at hl
    rcases hl with (((((⟨-, rfl⟩ | ⟨e, -, hl⟩) | ⟨-, rfl⟩) | ⟨t, -, (rfl | ⟨f, -, rfl⟩) | rfl⟩) |
      ⟨-, rfl⟩) | ⟨r, -, rfl⟩) | ⟨-, rfl⟩
    · exact List.not_mem_nil
    · exact (EnumText.isOwnUnit_of_mem_lines hl).1
    · exact List.not_mem_nil
    · exact t.isOwnUnit_header.1
    · exact f.newline_not_mem_line
    · decide
    · exact List.not_mem_nil
    · exact r.isOwnUnit_line.1
    · exact List.not_mem_nil

/-- A regenerated text is laid out as the document without its comments, with empty lines
    at the end. -/
theorem laidOut_regenerated :
    ∃ n, Block.laidOut (OrderIndex.ofOrder (d.tables.map (·.entry)))
        (Partition.start.run (d.regeneratedLines tables before between after atEnd)) =
      d.coreLines ++ List.replicate n [] := by
  -- What follows the tables has blocks of references only.
  have hrefs : ∃ n, ∃ bs : List Block, (∀ b ∈ bs, b.kind = .ref) ∧
      (∀ k ≠ .other, Block.ofKind (Partition.start.run
        (d.refs.map (·.line) ++ List.replicate atEnd [])) k = Block.ofKind bs k) ∧
      (if bs.isEmpty then [] else [] :: bs.flatMap (·.lines)) =
        d.refLines ++ List.replicate n [] := by
    by_cases hne : d.refs = []
    · refine ⟨0, [], nofun, fun k hk => ?_, ?_⟩
      · rw [hne, List.map_nil, List.nil_append, ← List.append_nil (List.replicate atEnd []),
          Partition.ofKind_run_replicate_nil hk rfl]
        rfl
      · rw [refLines, hne]
        rfl
    · obtain ⟨bs, hrun, hbs, hbsne, hlines⟩ := Partition.exists_run_refTexts d.refs hne atEnd
      refine ⟨atEnd, bs, hbs, fun k _ => ?_, ?_⟩
      · rw [← hrun]
        rfl
      · rw [refLines, List.isEmpty_eq_false_iff.2 hne, List.isEmpty_eq_false_iff.2 hbsne, hlines]
        rfl
  obtain ⟨n, refs, hall, hrun, hlines⟩ := hrefs
  have hkind : ∀ k ≠ .other, Block.ofKind (Partition.start.run
      (d.regeneratedLines tables before between after atEnd)) k =
        (if .enum = k then d.enums.map (·.block) else []) ++
          ((if .table = k then tables.map (·.block) else []) ++ if .ref = k then refs else []) :=
    fun k hk => by
      rw [d.ofKind_regenerated hk, hrun k hk, ofKind_enums, ofKind_tables,
        Block.ofKind_of_forall hall]
  have henum := hkind .enum (by decide)
  have htable := hkind .table (by decide)
  have href := hkind .ref (by decide)
  simp only [reduceCtorEq, if_true, if_false, List.append_nil, List.nil_append] at henum htable href
  refine ⟨n, ?_⟩
  have hne : (d.tables.map (·.block)).isEmpty = false := by
    rw [List.isEmpty_eq_false_iff, ne_eq, List.map_eq_nil_iff]
    exact d.tables_ne_nil
  rw [Block.laidOut, henum, htable, href, d.sortByRank_blocks hperm, hlines, hne, Bool.or_false,
    coreLines, enumLines, List.flatMap_map, List.flatMap_map]
  cases he : d.enums with
  | nil => simp [TableText.block]
  | cons e es => simp [TableText.block, EnumText.block]

/-- A regenerated text is reordered to the document without its comments. -/
theorem reorder_regenerated :
    Block.reorder (d.tables.map (·.entry))
        (Text.unlines (d.regeneratedLines tables before between after atEnd)) = d.bareText := by
  obtain ⟨n, hn⟩ := d.laidOut_regenerated hperm before between after atEnd
  have hpart :
      Block.partition (Text.unlines (d.regeneratedLines tables before between after atEnd)) =
        Partition.start.run (d.regeneratedLines tables before between after atEnd) := by
    rw [Block.partition, d.lines_regenerated hperm]
  have htable : Block.ofKind (Block.partition
      (Text.unlines (d.regeneratedLines tables before between after atEnd))) .table ≠ [] := by
    obtain ⟨t, ts, ht⟩ := List.exists_cons_of_ne_nil d.tables_ne_nil
    rw [hpart, d.ofKind_regenerated (by decide), ofKind_tables, if_pos rfl]
    have hmem : t.block ∈ tables.map (·.block) :=
      List.mem_map_of_mem (hperm.mem_iff.2 (ht ▸ List.mem_cons_self))
    exact List.ne_nil_of_mem (List.mem_append_right _ (List.mem_append_left _ hmem))
  rw [Block.reorder_eq_of_laidOut htable, hpart, hn,
    Layout.trimEnd_collapse d.spaced_coreLines d.coreLines_ne_nil
      (fun l hl => d.getLast?_coreLines hl), ← Text.unlines_append_nil d.coreLines_ne_nil]
  rfl

/-- A document is restored exactly from what regenerating leaves of it: the text without
    its comments, with the tables in any order. -/
theorem preserve_text :
    preserve d.text (Text.unlines (d.regeneratedLines tables before between after atEnd)) =
      d.text := by
  rw [preserve, Snapshot.restore, Snapshot.merge, Snapshot.reorder, Snapshot.capture,
    d.extract_order, d.extract_text, d.reorder_regenerated hperm, d.merge_bareText]

end Regenerated

/-- A document with two tables and a comment at each sort of place. -/
def twoTables : Document where
  header := ["// h".toList]
  enums := [⟨"e".toList, ["v".toList], by decide, by decide⟩]
  tables :=
    [⟨["// t".toList], some "s".toList, "b".toList, [" // i".toList],
      [⟨"f".toList, "int".toList, some "// c".toList, by decide, by decide, by decide⟩],
      by decide, by decide, by decide, by decide, by simp⟩,
      ⟨[], none, "a".toList, [], [], by decide, by decide, by decide, by decide, by simp⟩]
  refs := [⟨" x > y".toList, by decide⟩]
  footer := ["// f".toList]
  areNotes := by decide
  tables_ne_nil := List.cons_ne_nil _ _
  nodup := by decide
  firstAbove := nofun

/-- The tables of the regenerated text are in the other order, and more empty lines are
    between its parts. -/
theorem preserve_text_twoTables :
    let ofLines := fun ls : List String => Text.unlines (ls.map String.toList)
    let source := ofLines ["// h", "", "Enum \"e\" \x7b", "  \"v\"", "\x7d", "", "// t",
      "Table \"s\".\"b\" \x7b", " // i", "  \"f\" int // c", "\x7d", "Table \"a\" \x7b", "\x7d",
      "", "Ref: x > y", "", "", "// f"]
    let regenerated := ofLines ["Enum \"e\" \x7b", "  \"v\"", "\x7d", "", "",
      "Table \"a\" \x7b", "\x7d", "Table \"s\".\"b\" \x7b", "  \"f\" int", "\x7d", "",
      "Ref: x > y", ""]
    preserve source regenerated = source :=
  preserve_text twoTables (List.reverse_perm twoTables.tables) 0 2 1 1

end Document

end DbmlRestore
