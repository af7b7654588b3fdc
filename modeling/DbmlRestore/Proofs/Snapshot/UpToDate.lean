import DbmlRestore.Proofs.Comment.Blocks
import DbmlRestore.Proofs.Comment.Extracted
import DbmlRestore.Snapshot

/-!
# Texts that are up to date

A restored text is *up to date* if restoring it from itself changes nothing. To restore it, its
comments are read again, the text is laid out again, and the comments are put back. This gives
the text again if and only if (`preserve_preserve_iff`)

* no comment on a line of its own stands inside of a block, as the layout keeps such a line, and
  the comment is put there once more. So stand the comments that open the body of a table, and
  those after a block that no brace closes, such as a footer after a reference;
* the text with nothing but the comments at the ends of its lines is laid out already;
* a table with comments before it has one header, and that is not the first definition: the
  comments are read once for each header, and before the first definition as the header of the
  schema;
* there is a definition if there is a footer, which else is read as the header.

A comment inside of a table breaks the first of these (`preserve_preserve_ne`).
-/

namespace DbmlRestore

/-- The table of the first definition, if that is the header of a table. -/
def Line.firstTable? (ls : List Line) : Option Text :=
  (ls.find? isDefinition).bind fun l => (tableHeader? (Text.trim l)).map (·.table)

/-- There is a site above each header of a table. -/
theorem Merging.count_sites_table {m : Merging} {ls : List Line} (table : Text) :
    (m.sites ls).count ⟨.table, table⟩ =
      ((ls.filterMap fun l => (Line.tableHeader? (Text.trim l)).map TableEntry.ofHeader).map
        (·.table)).count table := by
  induction ls generalizing m with
  | nil => rfl
  | cons l ls ih =>
    rw [sites, List.count_append, ih]
    cases hl : Line.tableHeader? (Text.trim l) with
    | some h =>
      rw [sitesAt_of_header hl, List.filterMap_cons_some (b := .ofHeader h) (by rw [hl]; rfl),
        List.map_cons, List.count_singleton, List.count_cons, Nat.add_comm]
      congr 1
      by_cases ht : h.table = table <;> simp [ht, TableEntry.ofHeader]
    -- A line that is no header of a table is a site inside of one at most.
    | none =>
      rw [List.filterMap_cons_none (by rw [hl]; rfl), sitesAt_of_none hl, List.count_eq_zero.2,
        Nat.zero_add]
      intro hmem
      split at hmem
      · split at hmem
        · exact absurd hmem List.not_mem_nil
        · cases List.mem_singleton.1 hmem
      · exact absurd hmem List.not_mem_nil

namespace Comment

variable {cs : List Comment} {t : Text} (hcs : ∀ c ∈ cs, c.IsPlain)
  (ht : ∀ l ∈ Text.lines t, Line.IsBare l)
  (hz : Line.AtZero Line.IsTableHeader 0 (Text.lines t))
  (hbal : Line.depthOf (Text.lines t) = 0)

/-- Each comment has a line, so that there are none without lines. -/
theorem linesOf_eq_nil_iff {k : CommentKind} : linesOf cs k = [] ↔ textsOf cs k = [] := by
  refine ⟨fun h => ?_, fun h => by rw [linesOf, h]; rfl⟩
  by_contra hne
  exact Text.flatMap_lines_ne_nil hne h

include hcs ht hz hbal

/-- The header is read as it was if there are no comments above the first definition, and no
    footer without a definition. -/
theorem header_extract_merge_iff :
    linesOf (extract (merge cs t)) .header = linesOf cs .header ↔
      (∀ table ∈ Line.firstTable? (Text.lines t), textsOn cs .table table = []) ∧
        (textsOf cs .footer ≠ [] → ∃ l ∈ Text.lines t, Line.isDefinition l = true) := by
  by_cases hdef : ∃ l ∈ Text.lines t, Line.isDefinition l = true
  · obtain ⟨pre, l, post, hlines, hpre, hl⟩ := exists_first_definition hdef
    obtain ⟨hheader, -, -⟩ := lines_extract_merge_of_definition hcs ht hz hbal hlines hpre hl
    have hfirst : Line.firstTable? (Text.lines t) =
        (Line.tableHeader? (Text.trim l)).map (·.table) := by
      have hfind : (pre ++ l :: post).find? Line.isDefinition = some l := by
        rw [List.find?_append, List.find?_eq_none.2 fun k hk => by rw [hpre k hk]; decide,
          List.find?_cons_of_pos hl]
        rfl
      rw [Line.firstTable?, hlines, hfind]
      rfl
    rw [hheader, List.append_right_eq_self, hfirst]
    constructor
    · refine fun h => ⟨fun table htable => ?_, fun _ => hdef⟩
      obtain ⟨header, hl', rfl⟩ := Option.map_eq_some_iff.1 htable
      rw [Merging.sitesAt_of_header hl', List.flatMap_singleton] at h
      exact linesOn_eq_nil_iff.1 h
    · rintro ⟨h, -⟩
      cases hl' : Line.tableHeader? (Text.trim l) with
      | some header =>
        rw [Merging.sitesAt_of_header hl', List.flatMap_singleton]
        exact linesOn_eq_nil_iff.2 (h header.table (by rw [hl']; rfl))
      | none =>
        -- Before the first definition the scan is in no table.
        have hidle := (Merging.sites_of_undefined (m := .start) cs hpre rfl).2
        rw [Merging.sitesAt_of_none hl', TableScan.bodyTable?, hidle, ite_self]
        rfl
  · have hundef : ∀ l ∈ Text.lines t, Line.isDefinition l = false := fun l hl =>
      Bool.eq_false_iff.2 fun h => hdef ⟨l, hl, h⟩
    obtain ⟨hheader, -, -⟩ := lines_extract_merge_of_undefined hcs ht hbal hundef
    have hfirst : Line.firstTable? (Text.lines t) = none := by
      rw [Line.firstTable?, List.find?_eq_none.2 fun l hl => by rw [hundef l hl]; decide]
      rfl
    rw [hheader, List.append_right_eq_self, hfirst, linesOf_eq_nil_iff]
    constructor
    · refine fun h => ⟨?_, fun hne => absurd h hne⟩
      rintro _ ⟨⟩
    · rintro ⟨-, h⟩
      by_contra hne
      exact hdef (h hne)

/-- Comments that are read and put back into the layout of the merged text give the merged text
    again, if the layout leaves all of them out but those at the ends of lines, and each is read
    where it was put. -/
theorem merge_extract_reorder_iff :
    merge (extract (merge cs t)) (Block.reorder (TableEntry.extract (merge cs t)) (merge cs t)) =
        merge cs t ↔
      (∀ l ∈ Block.enclosed (Block.partition (merge cs t)), Line.isComment (Text.trim l) = false) ∧
      Block.reorder (TableEntry.extract (merge (endings cs) t)) (merge (endings cs) t) =
        merge (endings cs) t ∧
      linesOf (extract (merge cs t)) .header = linesOf cs .header ∧
      ∀ x ∈ Merging.start.sites (Text.lines t), x.kind = .table →
        (Merging.start.sites (Text.lines t)).count x = 1 ∨ linesOn cs x = [] := by
  constructor
  · intro heq
    obtain ⟨hzero, hcount⟩ := counts_of_merge_eq hcs ht hz hbal heq
    have hlaid := eq_merge_endings_of_merge_eq hcs ht hz hbal heq
      (countP_isMarked_reorder hcs hz ht _)
    have hno : ∀ l ∈ Block.enclosed (Block.partition (merge cs t)),
        Line.isComment (Text.trim l) = false := by
      intro l hl
      -- A comment inside of a block would be a remark of the layout.
      by_contra hc
      rw [Bool.not_eq_false] at hc
      have hblank : Line.isBlankLine l = false := by
        rw [← Bool.not_eq_true, Line.isBlankLine_iff]
        intro htrim
        rw [htrim] at hc
        exact nomatch hc
      have := Line.remarks_eq_zero_iff.1 hzero l (Block.mem_reorder_of_mem_enclosed hl hblank)
      exact Bool.noConfusion (hc.symm.trans this)
    refine ⟨hno, ?_, header_of_merge_eq hcs ht hz hbal heq, fun x hx _ => hcount x hx⟩
    rw [← reorder_merge hcs ht hz hno]
    exact hlaid
  · rintro ⟨hno, hlaid, hheader, hcount⟩
    rw [reorder_merge hcs ht hz hno, hlaid]
    refine merge_extract_merge hcs ht hz hbal hheader fun x hx => ?_
    obtain ⟨-, hon⟩ := linesOn_extract_merge hcs ht hz hbal hheader
    have hx' : (Merging.start.sites (Text.lines t)).count x = 1 ∨ linesOn cs x = [] := by
      rcases Merging.kind_of_mem_sites hx with hk | hk
      · exact hcount x hx hk
      · -- What opens a body stands inside of a block.
        refine .inr (List.eq_nil_iff_forall_not_mem.2 fun r hr => ?_)
        have := hno r (mem_enclosed_of_field hcs hz hx hk hr)
        exact Bool.noConfusion ((isRemark_of_mem_linesOn hcs hr).isComment.symm.trans this)
    rw [hon x (Merging.kind_of_mem_sites hx), List.filter_eq]
    rcases hx' with hone | hnil
    · rw [hone, List.replicate_one, List.flatMap_singleton]
    · rw [hnil]
      exact List.flatMap_eq_nil_iff.2 fun y hy => List.eq_of_mem_replicate hy ▸ hnil

end Comment

/-- A restored text is up to date if and only if its comments are found and put where they were.
    What is asked of the regenerated text is that it has no comments, that its braces balance and
    that its headers stand at depth zero. -/
theorem preserve_preserve_iff {source regenerated : Text}
    (hsource : ∀ c ∈ Comment.extract source, ∀ l ∈ Text.lines c.text, Line.IsRemark l)
    (hbare : ∀ l ∈ Text.lines regenerated, Line.IsBare l)
    (hbal : Line.depthOf (Text.lines regenerated) = 0)
    (hz : Line.AtZero Line.IsHeader 0 (Text.lines regenerated)) :
    let cs := Comment.extract source
    let laid := Block.reorder (TableEntry.extract source) regenerated
    let ended := Comment.merge (Comment.endings cs) laid
    let restored := preserve source regenerated
    preserve restored restored = restored ↔
      (∀ b ∈ Block.partition restored, b.kind ≠ .other →
        ∀ l ∈ b.lines, Line.isComment (Text.trim l) = false) ∧
      Block.reorder (TableEntry.extract ended) ended = ended ∧
      (∀ table, Comment.textsOn cs .table table ≠ [] →
        ((TableEntry.extract laid).map (·.table)).count table ≤ 1 ∧
          Line.firstTable? (Text.lines laid) ≠ some table) ∧
      (Comment.textsOf cs .footer ≠ [] → ∃ l ∈ Text.lines laid, Line.isDefinition l = true) := by
  intro cs laid ended restored
  have hcs : ∀ c ∈ cs, c.IsPlain := fun c hc => Comment.isPlain_of_mem_extract hc (hsource c hc)
  have hbare' : ∀ l ∈ Text.lines laid, Line.IsBare l := fun l hl =>
    Block.isBare_of_mem_reorder hbare hl
  have hbal' : Line.depthOf (Text.lines laid) = 0 := Block.depthOf_reorder hz hbal _
  have hz' : Line.AtZero Line.IsTableHeader 0 (Text.lines laid) := by
    intro pre l post hsplit hl
    exact Block.atZero_reorder hz hbal _ pre l post hsplit (Line.isHeader_of_tableHeader? hl)
  have hcore := Comment.merge_extract_reorder_iff hcs hbare' hz' hbal'
  rw [Comment.header_extract_merge_iff hcs hbare' hz' hbal'] at hcore
  refine hcore.trans (and_congr ?_ (and_congr Iff.rfl ?_))
  · simp only [Block.mem_enclosed]
    exact ⟨fun h b hb hk l hl => h l ⟨b, hb, hk, hl⟩, fun h l ⟨b, hb, hk, hl⟩ => h b hb hk l hl⟩
  · -- A table has as many sites above it as it has headers.
    have hcount : ∀ table, (Merging.start.sites (Text.lines laid)).count ⟨.table, table⟩ =
        ((TableEntry.extract laid).map (·.table)).count table := Merging.count_sites_table
    constructor
    · rintro ⟨⟨hfirst, hfooter⟩, hsites⟩
      refine ⟨fun table htable => ⟨?_, fun h => htable (hfirst table h)⟩, hfooter⟩
      rw [← hcount]
      by_cases hx : (⟨.table, table⟩ : Site) ∈ Merging.start.sites (Text.lines laid)
      · rcases hsites _ hx rfl with hone | hnil
        · exact Nat.le_of_eq hone
        · exact absurd (Comment.linesOn_eq_nil_iff.1 hnil) htable
      · rw [List.count_eq_zero.2 hx]
        exact Nat.zero_le 1
    · rintro ⟨htables, hfooter⟩
      refine ⟨⟨fun table hfirst => ?_, hfooter⟩, ?_⟩
      · by_contra htable
        exact (htables table htable).2 hfirst
      · rintro ⟨kind, table⟩ hx rfl
        by_cases htable : Comment.textsOn cs .table table = []
        · exact .inr (Comment.linesOn_eq_nil_iff.2 htable)
        · refine .inl (Nat.le_antisymm ?_ (List.count_pos_iff.2 hx))
          rw [hcount]
          exact (htables table htable).1

/-- A schema with a comment at each sort of place but the inside of a table. -/
theorem preserve_preserve_enum_table :
    let source :=
      "// h\n\nEnum e \x7b\n\x7d\n// t\nTable a \x7b\n  \"id\" int // k\n\x7d\n\n// f".toList
    let restored := preserve source "Table a \x7b\n  \"id\" int\n\x7d\nEnum e \x7b\n\x7d".toList
    preserve restored restored = restored := by
  refine (preserve_preserve_iff (by decide) (by decide) (by decide) (by decide)).2
    ⟨by decide +kernel, by decide +kernel, fun table htable => ?_, fun _ => by decide +kernel⟩
  obtain ⟨text, htext⟩ := List.exists_mem_of_ne_nil _ htable
  obtain ⟨c, hc, hk, ha, -⟩ := Comment.exists_of_mem_textsOn htext
  have honly : ∀ c ∈ Comment.extract
      "// h\n\nEnum e \x7b\n\x7d\n// t\nTable a \x7b\n  \"id\" int // k\n\x7d\n\n// f".toList,
      c.kind = .table → c.anchor.table = some "a".toList := by decide
  obtain rfl : table = "a".toList := Option.some.inj (ha.symm.trans (honly c hc hk))
  exact ⟨by decide +kernel, by decide +kernel⟩

/-- A comment inside of a table is put above the one that the layout has kept. -/
theorem preserve_preserve_ne :
    let source := "Table t \x7b\n  // c\n  \"id\" int\n\x7d".toList
    let regenerated := "Table t \x7b\n  \"id\" int\n\x7d\n".toList
    let restored := preserve source regenerated
    (∀ c ∈ Comment.extract source, ∀ l ∈ Text.lines c.text, Line.IsRemark l) ∧
      (∀ l ∈ Text.lines regenerated, Line.IsBare l) ∧
      Line.depthOf (Text.lines regenerated) = 0 ∧
      Line.AtZero Line.IsHeader 0 (Text.lines regenerated) ∧
      restored = "Table t \x7b\n  // c\n  \"id\" int\n\x7d\n".toList ∧
      preserve restored restored = "Table t \x7b\n  // c\n  // c\n  \"id\" int\n\x7d\n".toList ∧
      preserve restored restored ≠ restored := by
  decide +kernel

end DbmlRestore
