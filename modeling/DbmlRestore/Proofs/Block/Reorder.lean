import DbmlRestore.Proofs.Block.Layout
import DbmlRestore.Proofs.Block.Partition

/-!
# The lines of a reordered text

A text is laid out again line by line (`Block.laidOut`): the lines of its enums, of its
sorted tables and of its references, with empty lines between these parts. The reordered text
is made of these lines, tidied (`Block.reorder_eq_of_laidOut`).
-/

namespace DbmlRestore

namespace Text

/-- A line feed at the end starts an empty line. -/
theorem unlines_append_nil {ls : List Line} (h : ls ≠ []) :
    unlines (ls ++ [[]]) = unlines ls ++ ['\n'] := by
  induction ls with
  | nil => exact absurd rfl h
  | cons l ls ih =>
    cases ls with
    | nil => rw [List.singleton_append, unlines_cons_cons, unlines_singleton, unlines_singleton]
    | cons m ls =>
      rw [List.cons_append, List.cons_append, unlines_cons_cons, ← List.cons_append,
        ih (List.cons_ne_nil m ls), unlines_cons_cons, List.append_assoc]
      rfl

end Text

namespace Block

variable {index : OrderIndex} {bs : List Block} {t : Text}

theorem layout_eq_nil_iff :
    layout index bs = [] ↔ ofKind bs .enum = [] ∧ sortByRank index (ofKind bs .table) = [] ∧
      ofKind bs .ref = [] := by
  simp +contextual [layout]

/-- The lines of the blocks as they are laid out. -/
def laidOut (index : OrderIndex) (bs : List Block) : List Line :=
  (ofKind bs .enum).flatMap (·.lines) ++
    (if (ofKind bs .enum).isEmpty || (sortByRank index (ofKind bs .table)).isEmpty then []
      else [[]]) ++
    (sortByRank index (ofKind bs .table)).flatMap (·.lines) ++
    (if (ofKind bs .ref).isEmpty then [] else [] :: (ofKind bs .ref).flatMap (·.lines))

/-- The texts of blocks have the lines of the blocks. -/
theorem flatMap_lines_map_text (h : ∀ b ∈ bs, b.lines ≠ [] ∧ ∀ l ∈ b.lines, '\n' ∉ l) :
    (bs.map text).flatMap Text.lines = bs.flatMap (·.lines) := by
  rw [List.flatMap_map]
  exact List.flatMap_congr fun b hb =>
    Text.lines_unlines_of_forall (h b hb).1 (h b hb).2

/-- The lines of the pieces of a layout are the lines of the blocks and the empty ones between them.
    -/
theorem flatMap_lines_layout (h : ∀ b ∈ bs, b.lines ≠ [] ∧ ∀ l ∈ b.lines, '\n' ∉ l) :
    (layout index bs).flatMap Text.lines = laidOut index bs := by
  have hkind : ∀ {k : BlockKind}, ∀ b ∈ ofKind bs k, b.lines ≠ [] ∧ ∀ l ∈ b.lines, '\n' ∉ l :=
    fun b hb => h b (List.mem_filter.1 hb).1
  have hsort : ∀ b ∈ sortByRank index (ofKind bs .table),
      b.lines ≠ [] ∧ ∀ l ∈ b.lines, '\n' ∉ l :=
    fun b hb => hkind b ((List.mergeSort_perm _ _).mem_iff.1 hb)
  rw [layout, laidOut, List.flatMap_append, List.flatMap_append, List.flatMap_append,
    flatMap_lines_map_text hkind, flatMap_lines_map_text hsort]
  congr 2
  · split <;> rfl
  · split
    · rfl
    · rw [List.flatMap_cons, flatMap_lines_map_text hkind]
      rfl

/-- The blocks of a text have lines without line feeds. -/
theorem lines_of_mem_partition {b : Block} (hb : b ∈ partition t) :
    b.lines ≠ [] ∧ ∀ l ∈ b.lines, '\n' ∉ l :=
  Partition.forall_mem_run List.not_mem_nil (fun _ hl => Text.newline_not_mem hl)
    (fun _ hc => absurd hc (Option.not_mem_none _)) b hb

theorem layout_ne_nil_of_table (h : ofKind bs .table ≠ []) : layout index bs ≠ [] := by
  have hne : sortByRank index (ofKind bs .table) ≠ [] := fun he =>
    h (List.perm_nil.1 (he ▸ (List.mergeSort_perm _ _).symm))
  simp [layout, hne]

/-- The reordered text is made of the tidied lines of its layout. -/
theorem reorder_eq_of_laidOut {order : List TableEntry}
    (h : ofKind (partition t) .table ≠ []) :
    reorder order t = Text.unlines (Layout.trimEnd (Layout.collapse
      (laidOut (OrderIndex.ofOrder order) (partition t)))) ++ ['\n'] := by
  rw [reorder, Layout.tidy, Text.lines_unlines (layout_ne_nil_of_table h),
    flatMap_lines_layout fun b hb => lines_of_mem_partition hb]

end Block

end DbmlRestore
