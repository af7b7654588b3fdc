import DbmlRestore.Proofs.Block.Neat
import DbmlRestore.Proofs.Text.Crlf

/-!
# Reordering texts with carriage returns

The lines of a text with CRLF line ends keep their carriage returns when the text is laid out again,
but the lines that are put between them are empty: one between enums and tables, one before the
references, and one for every two or more blank lines in a row. So the reordered text has CRLF line
ends if and only if there are tables alone, and no empty line among them
(`Block.isCrlf_reorder_iff`).
-/

namespace DbmlRestore

/-- An empty line before a line that is not blank is still there in tidied lines, unless it is the
    first. -/
theorem Layout.nil_mem_trimEnd_collapse {m : Line} (hm : Line.isBlankLine m = false)
    {ls : List Line} (hls : ls ≠ []) (ms : List Line) :
    [] ∈ trimEnd (collapse (ls ++ [] :: m :: ms)) := by
  obtain ⟨first, pre, rfl⟩ := List.exists_cons_of_ne_nil hls
  have hpadding : isPadding m = false := Bool.eq_false_iff.2 fun h => by
    rw [isBlankLine_of_isPadding h] at hm
    cases hm
  -- The empty line is squeezed away by no other one, as `m` follows it.
  obtain ⟨post, hcollapse⟩ : ∃ post, collapse (first :: pre ++ [] :: m :: ms) =
      first :: (squeeze (pre ++ [[]]) ++ m :: post) := by
    rcases List.eq_nil_or_concat ms with rfl | ⟨init, last, rfl⟩
    · refine ⟨[], ?_⟩
      have hsplit : pre ++ [[], m] = (pre ++ [[]]) ++ [m] := by simp
      rw [List.cons_append, hsplit, collapse, List.dropLast_concat, List.getLast?_concat]
      rfl
    · refine ⟨squeeze init ++ [last], ?_⟩
      have hsplit : pre ++ [] :: m :: init.concat last = (pre ++ [[]] ++ m :: init) ++ [last] := by
        simp
      rw [List.cons_append, hsplit, collapse, List.dropLast_concat, List.getLast?_concat,
        squeeze_append_cons hm, squeeze_cons_of_not_blank hm]
      simp
  rw [hcollapse, trimEnd, Text.dropEndWhile_append_of_exists _ ⟨m, List.mem_cons_self, hpadding⟩,
    squeeze_concat_nil]
  simp

namespace Block

variable {order : List TableEntry} {index : OrderIndex} {t : Text}

/-- A line of the layout is a line of a block, or one of the empty lines between them. -/
theorem mem_laidOut {bs : List Block} {l : Line} (hl : l ∈ laidOut index bs) :
    l = [] ∨ ∃ b ∈ bs, l ∈ b.lines := by
  have hlines : ∀ {bs' : List Block}, (∀ b ∈ bs', b ∈ bs) → l ∈ bs'.flatMap (·.lines) →
      ∃ b ∈ bs, l ∈ b.lines := fun hsub hl => by
    obtain ⟨b, hb, hl⟩ := List.mem_flatMap.1 hl
    exact ⟨b, hsub b hb, hl⟩
  have hkind : ∀ kind, ∀ b ∈ ofKind bs kind, b ∈ bs := fun _ b hb => (List.mem_filter.1 hb).1
  simp only [laidOut, List.mem_append] at hl
  rcases hl with ((hl | hl) | hl) | hl
  · exact .inr (hlines (hkind .enum) hl)
  · split at hl
    · cases hl
    · exact .inl (List.mem_singleton.1 hl)
  · refine .inr (hlines (fun b hb => hkind .table b ?_) hl)
    exact (List.mergeSort_perm _ _).mem_iff.1 hb
  · split at hl
    · cases hl
    · rcases List.mem_cons.1 hl with hl | hl
      · exact .inl hl
      · exact .inr (hlines (hkind .ref) hl)

/-- The lines of the tables, sorted. -/
def tableLines (index : OrderIndex) (bs : List Block) : List Line :=
  (sortByRank index (ofKind bs .table)).flatMap (·.lines)

section

variable (htable : ofKind (partition t) .table ≠ [])
include htable

/-- Where a table is laid out, its first line is not blank. -/
theorem exists_tableLines_eq :
    ∃ h ls, tableLines index (partition t) = h :: ls ∧ Line.isBlankLine h = false := by
  have hperm := List.mergeSort_perm (ofKind (partition t) .table) fun a b =>
    rankLe (a.rank? index) (b.rank? index)
  refine exists_flatMap_lines_eq (fun hnil => htable ?_) fun b hb => ?_
  · exact List.perm_nil.1 (hnil ▸ hperm.symm)
  · exact exists_lines_eq_of_mem_ofKind (by decide) (hperm.mem_iff.1 hb)

/-- The tidied lines have an empty one, unless there are tables alone and none among them. -/
theorem nil_not_mem_tidied_iff :
    [] ∉ Layout.trimEnd (Layout.collapse (laidOut index (partition t))) ↔
      ofKind (partition t) .enum = [] ∧ ofKind (partition t) .ref = [] ∧
        [] ∉ Layout.trimEnd (Layout.collapse (tableLines index (partition t))) := by
  obtain ⟨h, ls, htables, hblank⟩ := exists_tableLines_eq htable
  have hsorted : (sortByRank index (ofKind (partition t) .table)).isEmpty = false := by
    rw [List.isEmpty_eq_false_iff]
    intro hnil
    rw [tableLines, hnil] at htables
    cases htables
  by_cases henum : ofKind (partition t) .enum = []
  · by_cases href : ofKind (partition t) .ref = []
    · have hlaid : laidOut index (partition t) = tableLines index (partition t) := by
        simp [laidOut, henum, href, tableLines]
      rw [hlaid]
      exact ⟨fun hno => ⟨henum, href, hno⟩, fun hno => hno.2.2⟩
    · -- An empty line stands before the references.
      obtain ⟨r, rs, hrefs, hr⟩ := exists_flatMap_lines_eq href fun b hb =>
        exists_lines_eq_of_mem_ofKind (by decide) hb
      have hlaid : laidOut index (partition t) =
          tableLines index (partition t) ++ [] :: r :: rs := by
        simp [laidOut, henum, href, tableLines, hrefs]
      rw [hlaid, htables]
      refine iff_of_false (fun hno => hno ?_) fun hno => href hno.2.1
      exact Layout.nil_mem_trimEnd_collapse hr (List.cons_ne_nil h ls) rs
  · -- An empty line stands between the enums and the tables.
    obtain ⟨e, es, henums, -⟩ := exists_flatMap_lines_eq henum fun b hb =>
      exists_lines_eq_of_mem_ofKind (by decide) hb
    obtain ⟨ms, hlaid⟩ : ∃ ms, laidOut index (partition t) = (e :: es) ++ [] :: h :: ms := by
      refine ⟨ls ++ if (ofKind (partition t) .ref).isEmpty then [] else
        [] :: (ofKind (partition t) .ref).flatMap (·.lines), ?_⟩
      rw [tableLines] at htables
      simp [laidOut, henum, henums, hsorted, htables]
    rw [hlaid]
    refine iff_of_false (fun hno => hno ?_) fun hno => henum hno.1
    exact Layout.nil_mem_trimEnd_collapse hblank (List.cons_ne_nil e es) ms

/-- A reordered text with a table has the tidied lines of its layout, and an empty last one. -/
theorem lines_reorder_of_table : Text.lines (reorder order t) =
    Layout.trimEnd (Layout.collapse (laidOut (OrderIndex.ofOrder order) (partition t))) ++
      [[]] := by
  rw [reorder, Layout.lines_tidy, Text.lines_unlines (layout_ne_nil_of_table htable),
    flatMap_lines_layout fun b hb => lines_of_mem_partition hb]

end

/-- The lines that are laid out are empty or end in carriage returns, if all lines of the text do but
    the empty one at the end. -/
theorem isReturned_of_mem_tidied (ht : ∀ l ∈ Text.lines t, l = [] ∨ Line.IsReturned l) {l : Line}
    (hl : l ∈ Layout.trimEnd (Layout.collapse (laidOut index (partition t)))) :
    l = [] ∨ l.IsReturned := by
  rcases Layout.mem_trimEnd_collapse hl with hnil | hl
  · exact .inl hnil
  · rcases mem_laidOut hl with hnil | ⟨b, hb, hl⟩
    · exact .inl hnil
    · exact (Partition.forall_mem_run (p := .start) (.inl rfl) ht (by rintro _ ⟨⟩) b hb).2 l hl

/-- The reordered text has CRLF line ends if and only if there are tables alone, and no empty line
    among them. -/
theorem isCrlf_reorder_iff (ht : ∀ l ∈ Text.lines t, l = [] ∨ Line.IsReturned l)
    (htable : ofKind (partition t) .table ≠ []) :
    (reorder order t).IsCrlf ↔ ofKind (partition t) .enum = [] ∧ ofKind (partition t) .ref = [] ∧
      [] ∉ Layout.trimEnd (Layout.collapse
        (tableLines (OrderIndex.ofOrder order) (partition t))) := by
  rw [Text.isCrlf_iff_forall_lines, lines_reorder_of_table htable, List.dropLast_concat,
    ← nil_not_mem_tidied_iff htable]
  constructor
  · exact fun h hnil => Line.not_isReturned_nil (h [] hnil)
  · intro hno l hl
    rcases isReturned_of_mem_tidied ht hl with rfl | hl
    · exact absurd hl hno
    · exact hl

end Block

end DbmlRestore
