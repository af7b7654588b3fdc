import DbmlRestore.Proofs.Block.Neat

/-!
# Tidied lines

A reordered text ends with one line feed, and there is no padding at the end of what stands before
it and no two lines of padding next to each other (`Block.reorder_tidied`).

Tidying does this for every text whose first two lines are not both padding, as the first line is
left alone (`Layout.apart_trimEnd_collapse`): the text that is tidied starts with the header of a
block, or with an empty line and the header of a reference. A blank line may stay at the end: only
lines of spaces, tabs and carriage returns are taken away there.
-/

namespace DbmlRestore

namespace Layout

/-- No two lines of padding are next to each other. -/
def Apart (ls : List Line) : Prop :=
  ls.IsChain fun l m => ¬ (isPadding l = true ∧ isPadding m = true)

variable {l m first : Line} {ls ms rest : List Line}

/-- A line that is not blank is no padding. -/
theorem isPadding_eq_false (h : Line.isBlankLine l = false) : isPadding l = false :=
  Bool.eq_false_iff.2 fun hp => Bool.noConfusion (h.symm.trans (isBlankLine_of_isPadding hp))

theorem Spaced.apart (h : Spaced ls) : Apart ls :=
  h.imp fun l m hlm ⟨hl, hm⟩ => by
    rw [isBlankLine_of_isPadding hl, isBlankLine_of_isPadding hm] at hlm
    exact Bool.noConfusion hlm

/-- What is left when padding is taken away from the end does not end with padding. -/
theorem isPadding_of_mem_getLast? (h : l ∈ (Text.dropEndWhile isPadding ls).getLast?) :
    isPadding l = false := by
  rw [Text.dropEndWhile_eq_rdropWhile] at h
  obtain ⟨hne, rfl⟩ := List.mem_getLast?_eq_getLast h
  exact Bool.eq_false_iff.2 (List.rdropWhile_last_not isPadding ls hne)

/-- A line after squeezed ones is padding and goes with all padding before it, or keeps the lines
    apart. -/
theorem apart_dropEndWhile_squeeze (ls : List Line) :
    Apart (Text.dropEndWhile isPadding (squeeze ls.dropLast ++ ls.getLast?.toList)) := by
  rcases List.eq_nil_or_concat ls with rfl | ⟨init, last, rfl⟩
  · exact List.isChain_nil
  · have hinit : Apart (squeeze init) := (spaced_squeeze init).apart
    rw [List.concat_eq_append, List.dropLast_concat, List.getLast?_concat, Option.toList_some]
    cases hlast : isPadding last with
    | true =>
      rw [Text.dropEndWhile_append_of_forall _ fun k hk => by rwa [List.mem_singleton.1 hk]]
      obtain ⟨tail, htail, -⟩ := Text.exists_append_dropEndWhile isPadding (squeeze init)
      rw [htail] at hinit
      exact (List.isChain_append.1 hinit).1
    | false =>
      rw [Text.dropEndWhile_append_of_exists _ ⟨last, List.mem_singleton_self last, hlast⟩,
        Text.dropEndWhile_cons hlast]
      refine List.IsChain.append hinit (List.isChain_singleton last) fun k _ k' hk' h => ?_
      rw [← Option.some.inj hk', hlast] at h
      exact Bool.noConfusion h.2

/-- Lines that start with one that is not blank start with it when they are tidied. -/
theorem exists_dropEndWhile_squeeze_eq (hm : Line.isBlankLine m = false) (ms : List Line) :
    ∃ tail, Text.dropEndWhile isPadding
      (squeeze (m :: ms).dropLast ++ (m :: ms).getLast?.toList) = m :: tail := by
  have hpadding := isPadding_eq_false hm
  cases ms with
  | nil => exact ⟨_, Text.dropEndWhile_cons hpadding []⟩
  | cons k ks =>
    rw [List.dropLast_cons_cons, squeeze_cons_of_not_blank hm, List.cons_append]
    exact ⟨_, Text.dropEndWhile_cons hpadding _⟩

/-- Tidied lines have no padding at the end, and no two lines of it next to each other, if the first
    two of them are not both blank. -/
theorem apart_trimEnd_collapse (hstart : isPadding first = false ∨
      ∃ m ms, rest = m :: ms ∧ Line.isBlankLine m = false) :
    Apart (trimEnd (collapse (first :: rest))) ∧
      ∃ l ∈ (trimEnd (collapse (first :: rest))).getLast?, isPadding l = false := by
  have hrest := apart_dropEndWhile_squeeze rest
  rw [collapse, List.cons_append, trimEnd, List.getLast?_cons]
  rcases hstart with hfirst | ⟨m, ms, rfl, hm⟩
  · -- The first line is no padding, so that it is apart from what follows it.
    refine ⟨List.isChain_cons.2 ⟨fun k _ h => ?_, hrest⟩, _, rfl, ?_⟩
    · exact Bool.noConfusion (hfirst.symm.trans h.1)
    · cases hlast : (Text.dropEndWhile isPadding
        (squeeze rest.dropLast ++ rest.getLast?.toList)).getLast? with
      | none => exact hfirst
      | some l => exact isPadding_of_mem_getLast? hlast
  · -- The first line may be padding, and `m` behind it is not.
    obtain ⟨tail, htail⟩ := exists_dropEndWhile_squeeze_eq hm ms
    refine ⟨?_, _, rfl, ?_⟩
    · rw [htail] at hrest ⊢
      refine List.isChain_cons_cons.2 ⟨fun h => ?_, hrest⟩
      exact Bool.noConfusion ((isPadding_eq_false hm).symm.trans h.2)
    · obtain ⟨l, hl⟩ : ∃ l, (m :: tail).getLast? = some l := ⟨_, List.getLast?_cons⟩
      rw [← htail] at hl
      rw [hl]
      exact isPadding_of_mem_getLast? hl

end Layout

namespace Block

variable {index : OrderIndex} {t : Text}

/-- What is laid out starts with the header of a block, which an empty line may precede. -/
theorem exists_laidOut_eq (hne : layout index (partition t) ≠ []) :
    ∃ m ms, Line.isBlankLine m = false ∧
      (laidOut index (partition t) = m :: ms ∨ laidOut index (partition t) = [] :: m :: ms) := by
  by_cases henum : ofKind (partition t) .enum = []
  · by_cases htable : sortByRank index (ofKind (partition t) .table) = []
    · have href : ofKind (partition t) .ref ≠ [] := fun href =>
        hne (layout_eq_nil_iff.2 ⟨henum, htable, href⟩)
      obtain ⟨m, ms, hrefs, hm⟩ := exists_flatMap_lines_eq href fun b hb =>
        exists_lines_eq_of_mem_ofKind (by decide) hb
      exact ⟨m, ms, hm, .inr (by simp [laidOut, henum, htable, href, hrefs])⟩
    · obtain ⟨m, ms, htables, hm⟩ := exists_flatMap_lines_eq htable fun b hb =>
        exists_lines_eq_of_mem_ofKind (by decide) ((List.mergeSort_perm _ _).mem_iff.1 hb)
      exact ⟨m, _, hm, .inl (by simp [laidOut, henum, htables]; rfl)⟩
  · obtain ⟨m, ms, henums, hm⟩ := exists_flatMap_lines_eq henum fun b hb =>
      exists_lines_eq_of_mem_ofKind (by decide) hb
    exact ⟨m, _, hm, .inl (by rw [laidOut, henums]; rfl)⟩

/-- A reordered text is some text and a line feed. The text is empty, or its last line has a
    character other than the space, the tab and the carriage return; and of no two lines next to
    each other both are made of such characters only. -/
theorem reorder_tidied (order : List TableEntry) (t : Text) :
    ∃ x, reorder order t = x ++ ['\n'] ∧
      (x = [] ∨ ∃ l ∈ (Text.lines x).getLast?, Layout.isPadding l = false) ∧
      Layout.Apart (Text.lines x) := by
  refine ⟨Text.unlines (Layout.trimEnd (Layout.collapse (Text.lines
    (Text.unlines (layout (OrderIndex.ofOrder order) (partition t)))))), rfl, ?_⟩
  rw [Layout.lines_unlines_trimEnd]
  by_cases hne : layout (OrderIndex.ofOrder order) (partition t) = []
  · -- Without blocks the line feed is all there is.
    rw [hne]
    exact ⟨.inl rfl, List.isChain_singleton _⟩
  · obtain ⟨m, ms, hm, hlaid⟩ := exists_laidOut_eq hne
    rw [Text.lines_unlines hne, flatMap_lines_layout fun b hb => lines_of_mem_partition hb]
    rcases hlaid with hlaid | hlaid
    · rw [hlaid]
      obtain ⟨hapart, hlast⟩ := Layout.apart_trimEnd_collapse (.inl (Layout.isPadding_eq_false hm))
      exact ⟨.inr hlast, hapart⟩
    · rw [hlaid]
      obtain ⟨hapart, hlast⟩ := Layout.apart_trimEnd_collapse (.inr ⟨m, ms, rfl, hm⟩)
      exact ⟨.inr hlast, hapart⟩

end Block

end DbmlRestore
