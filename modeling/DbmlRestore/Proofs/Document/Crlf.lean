import DbmlRestore.Proofs.Block.Crlf
import DbmlRestore.Proofs.Comment.Crlf
import DbmlRestore.Snapshot

/-!
# Restoring texts with carriage returns

A text with CRLF line ends has a carriage return before every line feed. If the hand-written text
and the regenerated one have them, the restored text has them too where nothing but lines of the two
is put together. But lines that the restoration makes itself are empty, without a carriage return:
between enums and tables, before references, for a run of blank lines, after the comments of the
header and before those of the footer. A comment inside of a body that ends the hand-written text has
none either. `preserve_isCrlf_iff` says that these are the only ways to lose them.
-/

namespace DbmlRestore

variable {source regenerated : Text}

/-- Where the hand-written and the regenerated text have CRLF line ends, and the regenerated one ends
    in a line feed and has a table, the restored text has CRLF line ends if and only if no enum and
    no reference is laid out, no empty line is left among the tables, there is no comment of the
    header and none of the footer, and every comment that is put into a body ends in a carriage
    return. -/
theorem preserve_isCrlf_iff (hsource : source.IsCrlf) (hregenerated : regenerated.IsCrlf)
    (hend : ['\r', '\n'] <:+ regenerated)
    (htable : Block.ofKind (Block.partition regenerated) .table ≠ []) :
    let order := TableEntry.extract source
    let comments := Comment.extract source
    (preserve source regenerated).IsCrlf ↔
      (Block.ofKind (Block.partition regenerated) .enum = [] ∧
        Block.ofKind (Block.partition regenerated) .ref = [] ∧
        [] ∉ Layout.trimEnd (Layout.collapse
          (Block.tableLines (OrderIndex.ofOrder order) (Block.partition regenerated)))) ∧
      Comment.textsOf comments .header = [] ∧ Comment.textsOf comments .footer = [] ∧
      ∀ table ∈ TableScan.start.bodies (Text.lines (Block.reorder order regenerated)),
        Comment.BodyReturned comments table := by
  intro order comments
  obtain ⟨ls, hlines, hls⟩ := hregenerated.exists_lines hend
  -- The last line, which is empty, has no end.
  have hreturned : ∀ l ∈ Text.lines regenerated, l = [] ∨ Line.IsReturned l := by
    rw [hlines]
    intro l hl
    rcases List.mem_append.1 hl with hl | hl
    · exact .inr (hls l hl)
    · exact .inl (List.mem_singleton.1 hl)
  rw [← Block.isCrlf_reorder_iff hreturned htable]
  exact Comment.isCrlf_merge_iff (fun c hc => Comment.isReturned_of_mem_extract hsource hc)
    (Block.lines_reorder_of_table htable) fun l hl => Block.isReturned_of_mem_tidied hreturned hl

/-- A table comes back with a comment before it, one in its body and one at the end of a line. -/
theorem isCrlf_preserve_table :
    let source := ("Table b \x7b\r\n\x7d\r\n// of a\r\nTable a \x7b\r\n  // in a\r\n  \"id\" int " ++
      "// key\r\n\x7d").toList
    let regenerated := "Table a \x7b\r\n  \"id\" int\r\n\x7d\r\n".toList
    Text.IsCrlf source ∧ Text.IsCrlf regenerated ∧ (preserve source regenerated).IsCrlf := by
  intro source regenerated
  have hsource : Text.IsCrlf source := by decide +kernel
  have hregenerated : Text.IsCrlf regenerated := by decide +kernel
  refine ⟨hsource, hregenerated, (preserve_isCrlf_iff hsource hregenerated ?_ ?_).2 ?_⟩
  all_goals decide +kernel

/-- An enum and a table, both with CRLF line ends, are laid out with an empty line between them that
    has no carriage return. -/
theorem not_isCrlf_preserve_enum_table :
    let t := "Enum e \x7b\r\n\x7d\r\nTable a \x7b\r\n\x7d\r\n".toList
    Text.IsCrlf t ∧ ['\r', '\n'] <:+ t ∧ Block.ofKind (Block.partition t) .table ≠ [] ∧
      preserve t t = "Enum e \x7b\r\n\x7d\r\n\nTable a \x7b\r\n\x7d\r\n".toList ∧
      ¬ (preserve t t).IsCrlf := by
  decide +kernel

end DbmlRestore
