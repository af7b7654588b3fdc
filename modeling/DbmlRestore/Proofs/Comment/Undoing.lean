import DbmlRestore.Proofs.Comment.Assigned
import DbmlRestore.Proofs.Comment.Sections
import DbmlRestore.TableOrder

/-!
# Extraction undoes merging

Comments that are assigned to the tables of a text (`TableComments.Fits`) are all read
again once they are merged into it, in the same order and with the same anchors
(`Comment.extract_merge`).

The text is one without comments whose braces balance and whose tables have different
names and stand outside of all braces (`Text.IsTarget`).
-/

namespace DbmlRestore

namespace TableComments

/-- The section has a place for each of the comments: the comment on the table is not
    read with the header of the schema, there is a body if there are comments inside of
    it, and the fields with comments are in order, stand on one line each, and do so in
    the body. -/
structure Fits (tc : TableComments) (sec : TableSection) : Prop where
  above : sec.first = true → tc.above? = none
  inside : tc.inside ≠ [] → ∃ p ∈ sec.lines, 0 < p.1
  order : (tc.ends.map (·.1)).Sublist sec.fields
  once : ∀ e ∈ tc.ends, sec.fields.count e.1 = 1
  body : ∀ e ∈ tc.ends, ∀ p ∈ sec.lines, Line.fieldName? (Text.trim p.2) = some e.1 → 0 < p.1

instance (tc : TableComments) (sec : TableSection) : Decidable (tc.Fits sec) :=
  decidable_of_iff ((sec.first = true → tc.above? = none) ∧
      (tc.inside ≠ [] → ∃ p ∈ sec.lines, 0 < p.1) ∧ (tc.ends.map (·.1)).Sublist sec.fields ∧
      (∀ e ∈ tc.ends, sec.fields.count e.1 = 1) ∧
      ∀ e ∈ tc.ends, ∀ p ∈ sec.lines, Line.fieldName? (Text.trim p.2) = some e.1 → 0 < p.1)
    ⟨fun ⟨ha, hi, ho, hn, hb⟩ => ⟨ha, hi, ho, hn, hb⟩,
      fun ⟨ha, hi, ho, hn, hb⟩ => ⟨ha, hi, ho, hn, hb⟩⟩

/-- No field has two comments at its end. -/
theorem Fits.nodup_ends {tc : TableComments} {sec : TableSection} (h : tc.Fits sec) :
    (tc.ends.map (·.1)).Nodup := by
  refine List.nodup_iff_count.2 fun field => ?_
  by_cases hmem : field ∈ tc.ends.map (·.1)
  · obtain ⟨e, he, rfl⟩ := List.mem_map.1 hmem
    rw [← h.once e he]
    exact h.order.count_le _
  · rw [List.count_eq_zero.2 hmem]
    exact Nat.zero_le 1

end TableComments

/-- A text to merge comments into: one without comments and carriage returns, with a
    table or an enum, with balanced braces, and with tables of different names without a
    dot that stand outside of all braces. -/
structure Text.IsTarget (t : Text) : Prop where
  noReturn : '\r' ∉ t
  noMark : Text.holds Line.commentMark t = false
  noOpening : ∀ l ∈ Text.lines t, Line.opensComment (Text.trim l) = false
  defined : ∃ l ∈ Text.lines t, Line.isDefinition l = true
  balanced : Line.depthOf (Text.lines t) = 0
  tablesAtZero :
    Line.AtZero Line.IsTableHeader 0 (Text.lines t)
  nodup : ((TableEntry.extract t).map (·.table)).Nodup
  noDot : ∀ e ∈ TableEntry.extract t, '.' ∉ e.table

/-- Each line of a target is bare. -/
theorem Text.IsTarget.isBare {t : Text} (ht : t.IsTarget) {l : Line} (hl : l ∈ Text.lines t) :
    Line.IsBare l := by
  refine ⟨Bool.eq_false_iff.2 fun h => ?_, ht.noOpening l hl⟩
  have hin := (Text.holds_eq_true_iff.1 h).trans (Text.infix_of_mem_lines hl)
  exact Bool.noConfusion (ht.noMark.symm.trans (Text.holds_eq_true_iff.2 hin))

/-- No line of a target has a carriage return. -/
theorem Text.IsTarget.return_not_mem {t : Text} (ht : t.IsTarget) {l : Line}
    (hl : l ∈ Text.lines t) : '\r' ∉ l :=
  fun h => ht.noReturn ((Text.infix_of_mem_lines hl).subset h)

/-- There is a section for each table header. -/
theorem TableSection.map_table_ofLinesFrom (d : Bool) (s : TableScan) (ls : List Line) :
    (ofLinesFrom d s ls).2.map (·.table) =
      (ls.filterMap fun l => (Line.tableHeader? (Text.trim l)).map TableEntry.ofHeader).map
        (·.table) := by
  induction ls generalizing d s with
  | nil => rfl
  | cons l ls ih =>
    cases hl : Line.tableHeader? (Text.trim l) with
    | some h =>
      rw [ofLinesFrom_of_header hl, List.filterMap_cons_some (by rw [hl]; rfl), List.map_cons, ih]
      rfl
    | none => rw [ofLinesFrom_of_none hl, List.filterMap_cons_none (by rw [hl]; rfl), ih]

/-- There is a section for each table of the text. -/
theorem TableSection.map_table_ofText (t : Text) :
    (ofText t).map (·.table) = (TableEntry.extract t).map (·.table) :=
  map_table_ofLinesFrom _ _ _

/-! ### What is read -/

namespace TableSection

variable {cs : List Comment} {table : Text} {ls : List (Int × Line)}

theorem bodyRecords_true :
    bodyRecords cs table true ls = ls.flatMap fun p => endRecord cs table p.2 := by
  induction ls with
  | nil => rfl
  | cons p ls ih =>
    have hfilled : ¬ (0 < p.1 ∧ true = false) := fun h => Bool.noConfusion h.2
    rw [bodyRecords, if_neg hfilled, Bool.true_or, ih, List.flatMap_cons, List.nil_append]

/-- If fields with comments stand in the body, the comments inside of the body are read
    before theirs. -/
theorem bodyRecords_false (hbody : ∀ p ∈ ls, endRecord cs table p.2 ≠ [] → 0 < p.1) :
    bodyRecords cs table false ls =
      (if ∃ p ∈ ls, 0 < p.1 then
          ((Comment.textsOn cs .field table).flatMap Text.lines).map (.inBody · table)
        else []) ++
        ls.flatMap fun p => endRecord cs table p.2 := by
  induction ls with
  | nil => simp [bodyRecords]
  | cons p ls ih =>
    rw [bodyRecords, List.flatMap_cons]
    by_cases hp : 0 < p.1
    · rw [if_pos ⟨hp, rfl⟩, if_pos ⟨p, List.mem_cons_self, hp⟩, decide_eq_true hp, Bool.or_true,
        bodyRecords_true, List.append_assoc]
    · have hend : endRecord cs table p.2 = [] :=
        Decidable.not_not.1 fun h => hp (hbody p List.mem_cons_self h)
      have hiff : (∃ q ∈ p :: ls, 0 < q.1) ↔ ∃ q ∈ ls, 0 < q.1 := by
        simp only [List.mem_cons, exists_eq_or_imp, hp, false_or]
      rw [if_neg fun h => hp h.1, hend, decide_eq_false hp, Bool.or_false,
        ih fun q hq => hbody q (List.mem_cons_of_mem p hq)]
      simp only [hiff, List.nil_append]

/-- The comments at the ends of lines are those of the fields. -/
theorem flatMap_endRecord (sec : TableSection) :
    sec.lines.flatMap (fun p => endRecord cs table p.2) =
      sec.fields.flatMap fun field =>
        ((Comment.inlineText? cs table field).map (.inline · table field)).toList := by
  rw [fields]
  induction sec.lines with
  | nil => rfl
  | cons p ls ih =>
    rw [List.flatMap_cons, ih, endRecord, List.filterMap_cons]
    cases Line.fieldName? (Text.trim p.2) with
    | some field => rw [List.flatMap_cons]
    | none => rfl

end TableSection

namespace Comment

variable {header? footer? : Option Text} {part : TableSection → TableComments}
  {secs : List TableSection} {sec : TableSection}

section

variable (hn : (secs.map (·.table)).Nodup) (hdot : ∀ s ∈ secs, '.' ∉ s.table) (hsec : sec ∈ secs)
include hn hdot hsec

/-- A field without an assigned comment gets none. -/
theorem inlineText?_of_not_mem_ends {field : Text} (h : field ∉ (part sec).ends.map (·.1)) :
    inlineText? (assigned header? footer? TableSection.table part secs) sec.table field = none := by
  have hempty : (part sec).ends.filter (·.1 = field) = [] :=
    List.filter_eq_nil_iff.2 fun e he => by
      rw [decide_eq_true_eq]
      exact fun heq => h (List.mem_map.2 ⟨e, he, heq⟩)
  rw [inlineText?_assigned hn hdot hsec, hempty]
  rfl

variable (hfit : (part sec).Fits sec)
include hfit

/-- A field finds its own comment, as it has only one. -/
theorem inlineText?_of_mem_ends {e : Text × Text} (he : e ∈ (part sec).ends) :
    inlineText? (assigned header? footer? TableSection.table part secs) sec.table e.1 =
      some e.2 := by
  rw [inlineText?_assigned hn hdot hsec, filter_eq_of_nodup (·.1) hfit.nodup_ends he]
  rfl

/-- The comments at the ends of the lines are those of the fields that have one, in order. -/
theorem flatMap_endRecord_assigned :
    sec.lines.flatMap (fun p =>
        TableSection.endRecord (assigned header? footer? TableSection.table part secs)
          sec.table p.2) =
      (part sec).ends.map fun e => .inline e.2 sec.table e.1 := by
  have hcount : ∀ field ∈ (part sec).ends.map (·.1), sec.fields.count field = 1 :=
    fun field h => by
      obtain ⟨e, he, rfl⟩ := List.mem_map.1 h
      exact hfit.once e he
  rw [TableSection.flatMap_endRecord, flatMap_eq_of_sublist hfit.order hcount, List.flatMap_map,
    List.map_eq_flatMap]
  · refine List.flatMap_congr fun e he => ?_
    rw [inlineText?_of_mem_ends hn hdot hsec hfit he]
    rfl
  · intro field _ h
    rw [inlineText?_of_not_mem_ends hn hdot hsec h]
    rfl

/-- The fields that have a comment are in the body. -/
theorem pos_of_endRecord_ne_nil {p : Int × Line} (hp : p ∈ sec.lines)
    (hne : TableSection.endRecord (assigned header? footer? TableSection.table part secs)
      sec.table p.2 ≠ []) : 0 < p.1 := by
  rw [TableSection.endRecord] at hne
  cases hf : Line.fieldName? (Text.trim p.2) with
  | none => rw [hf] at hne; exact absurd rfl hne
  | some field =>
    by_cases hmem : field ∈ (part sec).ends.map (·.1)
    · obtain ⟨e, he, rfl⟩ := List.mem_map.1 hmem
      exact hfit.body e he p hp hf
    · simp only [hf, inlineText?_of_not_mem_ends hn hdot hsec hmem] at hne
      exact absurd rfl hne

/-- The comments that are read at a section are those that were assigned to it. -/
theorem records_assigned (hline : ∀ t ∈ (part sec).inside, '\n' ∉ t) :
    sec.records (assigned header? footer? TableSection.table part secs) =
      (part sec).records sec.table := by
  have habove : (if sec.first = true then [] else
      grouped (.onTable · sec.table) ((part sec).above?.toList.flatMap Text.lines)) =
        (part sec).above?.toList.map (.onTable · (some sec.table)) := by
    split
    · next hfirst => rw [hfit.above hfirst]; rfl
    · exact grouped_toList _ _
  have hinside : (if ∃ p ∈ sec.lines, 0 < p.1 then
        ((part sec).inside.flatMap Text.lines).map (inBody · (some sec.table)) else []) =
      (part sec).inside.map (inBody · (some sec.table)) := by
    rw [Text.flatMap_lines_of_forall hline]
    split
    · rfl
    · next h => rw [Decidable.not_not.1 fun hne => h (hfit.inside hne)]; rfl
  rw [TableSection.records, textsOn_assigned hn hsec, textsOn_records_table, habove,
    TableSection.bodyRecords_false fun _ => pos_of_endRecord_ne_nil hn hdot hsec hfit,
    textsOn_assigned hn hsec, textsOn_records_field, hinside,
    flatMap_endRecord_assigned hn hdot hsec hfit, TableComments.records, List.append_assoc]

end

/-- Comments that were merged into a text with a place for each of them are read again
    as they were. -/
theorem extract_merge {t : Text} (ht : t.IsTarget) (header? footer? : Option Text)
    (part : TableSection → TableComments)
    (hfit : ∀ sec ∈ TableSection.ofText t, (part sec).Fits sec)
    (hplain : ∀ c ∈ assigned header? footer? TableSection.table part (TableSection.ofText t),
      c.IsPlain) :
    extract (merge (assigned header? footer? TableSection.table part (TableSection.ofText t)) t) =
      assigned header? footer? TableSection.table part (TableSection.ofText t) := by
  have hn : ((TableSection.ofText t).map (·.table)).Nodup := by
    rw [TableSection.map_table_ofText]
    exact ht.nodup
  have hdot : ∀ sec ∈ TableSection.ofText t, '.' ∉ sec.table := fun sec hsec => by
    have hmem := List.mem_map_of_mem (f := (·.table)) hsec
    rw [TableSection.map_table_ofText] at hmem
    obtain ⟨e, he, heq⟩ := List.mem_map.1 hmem
    exact heq ▸ ht.noDot e he
  have hline : ∀ sec ∈ TableSection.ofText t, ∀ c ∈ (part sec).inside, '\n' ∉ c :=
    fun sec hsec c hc => by
      have hmem : inBody c sec.table ∈ (part sec).records sec.table :=
        List.mem_append_left _ (List.mem_append_right _ (List.mem_map_of_mem hc))
      exact (hplain _ (List.mem_append_left _ (List.mem_append_right _
        (List.mem_flatMap.2 ⟨sec, hsec, hmem⟩)))).inBody rfl
  -- The texts that were assigned are found in each of the sections.
  rw [extract_merge_eq_sections hplain (fun l hl => ht.isBare hl)
    (fun l hl => ht.return_not_mem hl) ht.tablesAtZero ht.balanced ht.defined, linesOf, linesOf,
    textsOf_assigned_header, textsOf_assigned_footer, grouped_toList, grouped_toList]
  · rw [assigned]
    congr 2
    exact List.flatMap_congr fun sec hsec =>
      records_assigned hn hdot hsec (hfit sec hsec) (hline sec hsec)
  · intro sec hsec hfirst
    rw [textsOn_assigned hn hsec, textsOn_records_table, (hfit sec hsec).above hfirst]
    rfl

/-- A table after an enum, with a comment at each sort of place. -/
theorem extract_merge_enum_table :
    let t := "Enum e \x7b\n\x7d\nTable u \x7b\n\"id\" int\n\x7d".toList
    let cs := [.header "// a".toList, .onTable "// b".toList "u".toList,
      .inBody " // c".toList "u".toList, .inline "// d".toList "u".toList "id".toList,
      .footer "// e\n// f".toList]
    extract (merge cs t) = cs :=
  extract_merge (t := "Enum e \x7b\n\x7d\nTable u \x7b\n\"id\" int\n\x7d".toList)
    ⟨by decide, by decide, by decide, by decide, by decide, by decide, by decide, by decide⟩
    "// a".toList "// e\n// f".toList
    (fun _ => ⟨"// b".toList, [" // c".toList], [("id".toList, "// d".toList)]⟩)
    (by decide) (by decide)

end Comment

end DbmlRestore
