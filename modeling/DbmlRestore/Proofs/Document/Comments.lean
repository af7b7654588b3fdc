import DbmlRestore.Proofs.Document

/-!
# The comments of a document

The comments that are read off a document are those it was written with
(`Document.extract_text`), and merging them into the document without comments gives
the document (`Document.merge_bareText`). Both passes go over the document part by part:
before and after each part a scan is outside of the tables and of all braces.
-/

namespace DbmlRestore

namespace TableScan

/-- A scan inside of the body of a table. -/
def within (t : Text) : TableScan := ⟨.body t, 1⟩

/-- A scan inside of braces, but in no table. -/
def aside : TableScan := ⟨.idle, 1⟩

variable {s : TableScan}

theorem alike_pass_close_within (t : Text) : ((within t).pass Line.close).Alike .start := ⟨rfl, rfl⟩

theorem alike_pass_close_aside : (aside.pass Line.close).Alike .start := ⟨rfl, rfl⟩

/-- After the header of an enum, no table is current. -/
theorem alike_pass_enum (hs : s.Alike .start) (e : EnumText) : (s.pass e.header).Alike aside := by
  have hidle := pass_table?_of_idle hs.table e.tableHeader?_header
  obtain ⟨ho, hc⟩ := e.braces_header
  refine ⟨hidle, ?_⟩
  rw [pass_depth, hs.depth, Line.depthChange, ho, hc]
  rfl

theorem alike_pass_table (hs : s.Alike .start) (t : TableText) :
    (s.pass t.header).Alike (within t.name) := by
  obtain ⟨ho, hc⟩ := t.braces_header
  refine ⟨?_, ?_⟩
  · rw [pass, see_of_header t.tableHeader?_header, finish_table?, hc,
      if_neg fun h => Nat.lt_irrefl 0 h.2]
    rfl
  · rw [pass_depth, hs.depth, Line.depthChange, ho, hc]
    rfl

/-- Lines without braces that are no headers are passed over. -/
theorem alike_after {ls : List Line} (hls : ∀ l ∈ ls, Line.tableHeader? (Text.trim l) = none ∧
    Line.opens l = 0 ∧ Line.closes l = 0) : (s.after ls).Alike s := by
  induction ls generalizing s with
  | nil => exact .refl s
  | cons l ls ih =>
    obtain ⟨ht, ho, hc⟩ := hls l List.mem_cons_self
    exact (ih fun k hk => hls k (List.mem_cons_of_mem l hk)).trans (s.alike_pass ht ho hc)

/-- A scan is outside of the tables again after an enum. -/
theorem alike_after_enum (hs : s.Alike .start) (e : EnumText) : (s.after e.lines).Alike .start := by
  have hvalues : ∀ l ∈ e.values.map EnumText.valueLine, Line.tableHeader? (Text.trim l) = none ∧
      Line.opens l = 0 ∧ Line.closes l = 0 := fun l hl => by
    obtain ⟨v, hv, rfl⟩ := List.mem_map.1 hl
    have hopen := (Line.of_trim_eq_quote (EnumText.trim_valueLine v)).1
    exact ⟨(Line.opened?_eq_none_iff.1 hopen).1, EnumText.braces_valueLine (e.areNames v hv)⟩
  rw [EnumText.lines, after_append, after_cons]
  exact (((alike_after hvalues).trans (alike_pass_enum hs e)).pass _).trans alike_pass_close_aside

/-- A scan is outside of the tables again after a table. -/
theorem alike_after_table (hs : s.Alike .start) (t : TableText) :
    (s.after t.lines).Alike .start := by
  have hfields : ∀ l ∈ t.fields.map (·.line), Line.tableHeader? (Text.trim l) = none ∧
      Line.opens l = 0 ∧ Line.closes l = 0 := fun l hl => by
    obtain ⟨f, -, rfl⟩ := List.mem_map.1 hl
    exact ⟨f.tableHeader?_line, f.braces_line⟩
  rw [TableText.lines, after_append, after_cons]
  exact (((alike_after hfields).trans (alike_pass_table hs t)).pass _).trans
    (alike_pass_close_within t.name)

end TableScan

/-! ## Reading -/

section Units

/-- A line that is a unit of its own: it opens no block comment. -/
def Line.IsOwnUnit (l : Line) : Prop := '\n' ∉ l ∧ Line.opensComment (Text.trim l) = false

/-- A note is a unit of its own. -/
theorem Line.IsNote.isOwnUnit {l : Line} (h : Line.IsNote l) : Line.IsOwnUnit l :=
  ⟨h.noNewline, h.opensComment_eq_false⟩

theorem Line.isOwnUnit_nil : Line.IsOwnUnit [] := ⟨List.not_mem_nil, rfl⟩

/-- Each line of an enum is a unit of its own. -/
theorem EnumText.isOwnUnit_of_mem_lines {e : EnumText} {l : Line} (hl : l ∈ e.lines) :
    Line.IsOwnUnit l := by
  rcases List.mem_append.1 hl with hl | hl
  · rcases List.mem_cons.1 hl with rfl | hl
    · refine ⟨?_, by rw [e.trim_header]; rfl⟩
      have := e.isName.noNewline
      simp_all [EnumText.header, Text.inQuotes]
    · obtain ⟨v, hv, rfl⟩ := List.mem_map.1 hl
      refine ⟨?_, (Line.of_trim_eq_quote (EnumText.trim_valueLine v)).2.2.1⟩
      have := (e.areNames v hv).noNewline
      simp_all [EnumText.valueLine, Text.inQuotes]
  · rw [List.mem_singleton.1 hl]
    exact ⟨by decide, by decide⟩

/-- The header of a table is a unit of its own. -/
theorem TableText.isOwnUnit_header (t : TableText) : Line.IsOwnUnit t.header := by
  refine ⟨?_, by rw [t.trim_header]; rfl⟩
  have hn := t.isName.noNewline
  cases hs : t.schema with
  | none => simp_all [TableText.header, TableText.qualifier, Text.inQuotes]
  | some s =>
    have := (t.isSchema s hs).noNewline
    simp_all [TableText.header, TableText.qualifier, Text.inQuotes]

/-- Each line of a table with its comments is a unit of its own. -/
theorem TableText.isOwnUnit_of_mem_fullLines {t : TableText} {l : Line} (hl : l ∈ t.fullLines) :
    Line.IsOwnUnit l := by
  simp only [TableText.fullLines, List.mem_append, List.mem_cons, List.mem_map, List.not_mem_nil,
    or_false] at hl
  rcases hl with ((hl | rfl | hl) | ⟨f, -, rfl⟩) | rfl
  · exact (t.areNotes l (List.mem_append_left _ hl)).isOwnUnit
  · exact t.isOwnUnit_header
  · exact (t.areNotes l (List.mem_append_right _ hl)).isOwnUnit
  · exact ⟨f.newline_not_mem_fullLine,
      f.dressed_fullLine.continues.opensComment_eq.trans f.isBare_line.noOpening⟩
  · exact ⟨by decide, by decide⟩

theorem RefText.isOwnUnit_line (r : RefText) : Line.IsOwnUnit r.line := by
  obtain ⟨u, hu⟩ := r.exists_trim_line
  refine ⟨?_, by rw [hu]; rfl⟩
  have := r.isCode.noNewline
  simp_all [RefText.line]

theorem Document.isOwnUnit_of_mem_enumLines {d : Document} {l : Line} (hl : l ∈ d.enumLines) :
    Line.IsOwnUnit l := by
  rw [enumLines] at hl
  split at hl
  · exact absurd hl List.not_mem_nil
  · rcases List.mem_append.1 hl with hl | hl
    · obtain ⟨e, -, hl⟩ := List.mem_flatMap.1 hl
      exact EnumText.isOwnUnit_of_mem_lines hl
    · rw [List.mem_singleton.1 hl]
      exact Line.isOwnUnit_nil

theorem Document.isOwnUnit_of_mem_refLines {d : Document} {l : Line} (hl : l ∈ d.refLines) :
    Line.IsOwnUnit l := by
  rw [refLines] at hl
  split at hl
  · exact absurd hl List.not_mem_nil
  · rcases List.mem_cons.1 hl with rfl | hl
    · exact Line.isOwnUnit_nil
    · obtain ⟨r, -, rfl⟩ := List.mem_map.1 hl
      exact r.isOwnUnit_line

/-- The lines of a document hold no line feed and open no block comment. -/
theorem Document.isOwnUnit_of_mem_lines {d : Document} {l : Line} (hl : l ∈ d.lines) :
    Line.IsOwnUnit l := by
  simp only [lines, List.mem_append, List.mem_flatMap, List.mem_singleton] at hl
  rcases hl with ((((hl | hl) | ⟨t, -, hl⟩) | hl) | rfl) | hl
  · split at hl
    · exact absurd hl List.not_mem_nil
    · rcases List.mem_append.1 hl with hl | hl
      · exact (d.areNotes l (List.mem_append_left _ hl)).isOwnUnit
      · rw [List.mem_singleton.1 hl]
        exact Line.isOwnUnit_nil
  · exact isOwnUnit_of_mem_enumLines hl
  · exact TableText.isOwnUnit_of_mem_fullLines hl
  · exact isOwnUnit_of_mem_refLines hl
  · exact Line.isOwnUnit_nil
  · split at hl
    · exact absurd hl List.not_mem_nil
    · rcases List.mem_cons.1 hl with rfl | hl
      · exact Line.isOwnUnit_nil
      · exact (d.areNotes l (List.mem_append_right _ hl)).isOwnUnit

/-- The text of a document has the lines of the document. -/
theorem Document.lines_text (d : Document) : Text.lines d.text = d.lines := by
  refine Text.lines_unlines_of_forall ?_ fun l hl => (isOwnUnit_of_mem_lines hl).1
  rw [lines]
  simp

/-- The text without comments has the lines without comments. -/
theorem Document.lines_bareText (d : Document) : Text.lines d.bareText = d.bareLines := by
  refine Text.lines_unlines_of_forall (by simp [bareLines]) fun l hl => ?_
  simp only [bareLines, TableText.lines, List.mem_append, List.mem_flatMap, List.mem_cons,
    List.mem_map, List.not_mem_nil, or_false] at hl
  rcases hl with ((hl | ⟨t, -, (rfl | ⟨f, -, rfl⟩) | rfl⟩) | hl) | rfl
  · exact (isOwnUnit_of_mem_enumLines hl).1
  · exact t.isOwnUnit_header.1
  · exact f.newline_not_mem_line
  · decide
  · exact (isOwnUnit_of_mem_refLines hl).1
  · exact List.not_mem_nil

end Units

namespace Extraction

variable {d : Bool} {p : List Text} {ls : List Line}

/-- The values of an enum are passed over. -/
theorem linewise_values {vs : List Text} (hvs : ∀ v ∈ vs, Text.IsName v) :
    linewise ⟨.aside, d, p⟩ (vs.map EnumText.valueLine ++ ls) = linewise ⟨.aside, d, p⟩ ls := by
  induction vs with
  | nil => rfl
  | cons v vs ih =>
    have hq := EnumText.trim_valueLine v
    obtain ⟨hopen, hcom, hop, -⟩ := Line.of_trim_eq_quote hq
    obtain ⟨ht, he, -⟩ := Line.opened?_eq_none_iff.1 hopen
    obtain ⟨ho, hc⟩ := EnumText.braces_valueLine (hvs v List.mem_cons_self)
    rw [List.map_cons, List.cons_append, linewise_other _ _ ht he hcom hop, inlineOf_of_idle _ rfl,
      List.nil_append, ← ih fun w hw => hvs w (List.mem_cons_of_mem v hw)]
    exact linewise_congr _ (TableScan.alike_pass _ ht ho hc) d p

/-- An enum takes the comments that wait. -/
theorem linewise_enumText (e : EnumText) :
    linewise ⟨.start, d, p⟩ (e.lines ++ ls) =
      Comment.grouped .header p ++ linewise ⟨.start, true, []⟩ ls := by
  have hlines : e.lines ++ ls =
      e.header :: (e.values.map EnumText.valueLine ++ (Line.close :: ls)) := by
    simp [EnumText.lines]
  rw [hlines, linewise_enum _ _ e.tableHeader?_header e.isEnumHeader_header]
  refine congrArg (Comment.grouped .header p ++ ·) ?_
  calc linewise ⟨TableScan.start.pass e.header, true, []⟩ _
      = linewise ⟨.aside, true, []⟩ (e.values.map EnumText.valueLine ++ (Line.close :: ls)) :=
        linewise_congr _ (TableScan.alike_pass_enum (.refl _) e) _ _
    _ = linewise ⟨.aside, true, []⟩ (Line.close :: ls) := linewise_values e.areNames
    _ = linewise ⟨.start, true, []⟩ ls := by
        rw [linewise_other _ _ rfl rfl rfl rfl, inlineOf_of_idle _ rfl]
        exact linewise_congr _ TableScan.alike_pass_close_aside _ _

/-- The comments of fields are recorded in order. -/
theorem linewise_fields (t : Text) (fs : List FieldText) :
    linewise ⟨.within t, true, []⟩ (fs.map (·.fullLine) ++ ls) =
      (fs.filterMap fun f => f.comment?.map fun c => (f.name, c)).map
          (fun e => .inline e.2 t e.1) ++
        linewise ⟨.within t, true, []⟩ ls := by
  induction fs with
  | nil => rfl
  | cons f fs ih =>
    have ht := f.tableHeader?_line
    obtain ⟨ho, hc⟩ := f.braces_line
    -- The braces of a field are none, so that the scan stays in the table.
    have hrest : linewise ⟨(TableScan.within t).pass f.line, true, []⟩ (fs.map (·.fullLine) ++ ls) =
        linewise ⟨.within t, true, []⟩ (fs.map (·.fullLine) ++ ls) :=
      linewise_congr _ (TableScan.alike_pass _ ht ho hc) _ _
    -- The comment at the end is the only one, and has no line of its own.
    have hend : inlineOf ⟨.within t, true, []⟩ f.fullLine =
        (f.comment?.map fun c => Comment.inline c t f.name).toList := by
      rw [FieldText.fullLine]
      cases hcom : f.comment? with
      | none => exact inlineOf_of_bare _ f.isBare_line
      | some c =>
        have htail := f.isTail c hcom
        exact inlineOf_append_space _ rfl f.isBare_line f.newline_not_mem_line f.fieldName?_line
          htail.isComment htail.noNewline
    rw [List.map_cons, List.cons_append, linewise_dressed _ f.dressed_fullLine f.isBare_line ht,
      hrest, ih, hend, List.filterMap_cons]
    cases f.comment? <;> rfl

/-- A table takes the comments that wait and those above it, and the ones inside of it
    and at the ends of its fields are recorded in order. -/
theorem linewise_tableText (t : TableText) :
    linewise ⟨.start, d, p⟩ (t.fullLines ++ ls) =
      Comment.grouped (fun c => if d then .onTable c t.name else .header c) (p ++ t.above) ++
        (t.comments.inside.map (.inBody · t.name) ++
          t.comments.ends.map (fun e => .inline e.2 t.name e.1)) ++
        linewise ⟨.start, true, []⟩ ls := by
  have hlines : t.fullLines ++ ls =
      t.above ++ t.header :: (t.inside ++ (t.fields.map (·.fullLine) ++ (Line.close :: ls))) := by
    simp [TableText.fullLines]
  have habove : ∀ r ∈ t.above, Line.IsRemark r := fun r hr =>
    (t.areNotes r (List.mem_append_left _ hr)).toIsRemark
  have hinside : ∀ r ∈ t.inside, Line.IsRemark r := fun r hr =>
    (t.areNotes r (List.mem_append_right _ hr)).toIsRemark
  -- The closing line ends the table, and has no comment.
  have hclose :
      linewise ⟨.within t.name, true, []⟩ (Line.close :: ls) = linewise ⟨.start, true, []⟩ ls := by
    rw [linewise_other _ _ rfl rfl rfl rfl, inlineOf_of_bare _ ⟨rfl, rfl⟩]
    exact linewise_congr _ (TableScan.alike_pass_close_within t.name) _ _
  -- In the table, there are first the comments of its body, then those at the ends of fields.
  have hbody : linewise ⟨TableScan.start.pass t.header, true, []⟩
      (t.inside ++ (t.fields.map (·.fullLine) ++ (Line.close :: ls))) =
        (t.comments.inside.map (.inBody · t.name) ++
          t.comments.ends.map (fun e => .inline e.2 t.name e.1)) ++
            linewise ⟨.start, true, []⟩ ls := by
    rw [linewise_congr _ (TableScan.alike_pass_table (.refl _) t), linewise_remarks _ _ hinside]
    show _ ++ linewise ⟨.within t.name, true, []⟩ _ = _
    rw [linewise_fields, hclose, List.append_assoc]
    rfl
  rw [hlines, linewise_remarks _ _ habove]
  show linewise ⟨.start, d, p ++ t.above⟩ _ = _
  rw [linewise_header _ _ t.tableHeader?_header, hbody, ← List.append_assoc]
  rfl

/-- A reference is passed over. -/
theorem linewise_refText (r : RefText) :
    linewise ⟨.start, d, p⟩ (r.line :: ls) = linewise ⟨.start, d, p⟩ ls := by
  obtain ⟨ho, hc⟩ := r.braces_line
  obtain ⟨u, htrim⟩ := r.exists_trim_line
  have ht := r.tableHeader?_line
  rw [linewise_other _ _ ht (by rw [htrim]; rfl) (by rw [htrim]; rfl) (by rw [htrim]; rfl),
    inlineOf_of_idle _ rfl, List.nil_append]
  exact linewise_congr _ (TableScan.alike_pass _ ht ho hc) d p

/-- Enums after the first definition are passed over. -/
theorem linewise_enumTexts (es : List EnumText) :
    linewise ⟨.start, true, []⟩ (es.flatMap (·.lines) ++ ls) = linewise ⟨.start, true, []⟩ ls := by
  induction es with
  | nil => rfl
  | cons e es ih =>
    rw [List.flatMap_cons, List.append_assoc, linewise_enumText, ih]
    rfl

/-- The comments of tables after the first definition are recorded table by table. -/
theorem linewise_tableTexts (ts : List TableText) :
    linewise ⟨.start, true, []⟩ (ts.flatMap (·.fullLines) ++ ls) =
      ts.flatMap (fun t => t.comments.records t.name) ++ linewise ⟨.start, true, []⟩ ls := by
  induction ts with
  | nil => rfl
  | cons t ts ih =>
    have habove : Comment.grouped (fun c => if true then Comment.onTable c t.name else .header c)
        ([] ++ t.above) = t.comments.above?.toList.map (Comment.onTable · t.name) := by
      rw [Comment.grouped, TableText.comments, List.nil_append]
      split <;> rfl
    rw [List.flatMap_cons, List.append_assoc, linewise_tableText, ih, habove, List.flatMap_cons,
      TableComments.records, List.append_assoc, List.append_assoc, List.append_assoc,
      List.append_assoc, List.append_assoc]

theorem linewise_refTexts (rs : List RefText) :
    linewise ⟨.start, d, p⟩ (rs.map (·.line) ++ ls) = linewise ⟨.start, d, p⟩ ls := by
  induction rs with
  | nil => rfl
  | cons r rs ih => rw [List.map_cons, List.cons_append, linewise_refText, ih]

end Extraction

namespace Document

variable (d : Document)

/-- The comments of the header wait for the first definition. -/
theorem linewise_header (ls : List Line) :
    Extraction.start.linewise ((if d.header.isEmpty then [] else d.header ++ [[]]) ++ ls) =
      Extraction.linewise ⟨.start, false, d.header⟩ ls := by
  have hr : ∀ r ∈ d.header, Line.IsRemark r := fun r hr =>
    (d.areNotes r (List.mem_append_left _ hr)).toIsRemark
  split
  · next h => rw [List.isEmpty_iff.1 h]; rfl
  · rw [List.append_assoc, Extraction.linewise_remarks _ _ hr]
    exact Extraction.linewise_empty _ _

/-- The enums and the tables: the first one of them takes the comments of the header. -/
theorem linewise_definitions (ls : List Line) :
    Extraction.linewise ⟨.start, false, d.header⟩
        (d.enumLines ++ d.tables.flatMap (·.fullLines) ++ ls) =
      Comment.grouped .header d.header ++
        d.tables.flatMap (fun t => t.comments.records t.name) ++
        Extraction.linewise ⟨.start, true, []⟩ ls := by
  cases he : d.enums with
  -- Without enums, the first table has only the header of the schema above it.
  | nil =>
    obtain ⟨t, ts, ht⟩ := List.exists_cons_of_ne_nil d.tables_ne_nil
    have habove : t.above = [] := d.firstAbove he t (by rw [ht]; rfl)
    have hrec : t.comments.records t.name = t.comments.inside.map (.inBody · t.name) ++
        t.comments.ends.map (fun e => .inline e.2 t.name e.1) := by
      rw [TableComments.records, TableText.comments, habove]
      rfl
    rw [enumLines, he, ht, List.flatMap_cons, List.flatMap_cons, hrec]
    show Extraction.linewise _ (t.fullLines ++ ts.flatMap _ ++ ls) = _
    rw [List.append_assoc, Extraction.linewise_tableText, Extraction.linewise_tableTexts, habove,
      List.append_nil]
    simp only [List.append_assoc]
    rfl
  -- With enums, the first of them takes the header of the schema.
  | cons e es =>
    rw [enumLines, he]
    show Extraction.linewise _ ((e.lines ++ es.flatMap _) ++ [[]] ++ d.tables.flatMap _ ++ ls) = _
    simp only [List.append_assoc, List.cons_append, List.nil_append]
    rw [Extraction.linewise_enumText, Extraction.linewise_enumTexts, Extraction.linewise_empty,
      Extraction.linewise_tableTexts]

/-- What follows the tables: the comments after the last line are those of the footer. -/
theorem linewise_rest :
    Extraction.linewise ⟨.start, true, []⟩
        (d.refLines ++ [[]] ++ (if d.footer.isEmpty then [] else [] :: d.footer)) =
      Comment.grouped .footer d.footer := by
  have hr : ∀ r ∈ d.footer, Line.IsRemark r := fun r hr =>
    (d.areNotes r (List.mem_append_right _ hr)).toIsRemark
  have hrefs : ∀ ls, Extraction.linewise ⟨.start, true, []⟩ (d.refLines ++ ls) =
      Extraction.linewise ⟨.start, true, []⟩ ls := fun ls => by
    rw [refLines]
    split
    · rfl
    · rw [List.cons_append, Extraction.linewise_empty, Extraction.linewise_refTexts]
  rw [List.append_assoc, hrefs, List.singleton_append, Extraction.linewise_empty]
  split
  · next h => rw [List.isEmpty_iff.1 h]; rfl
  · rw [Extraction.linewise_empty, ← List.append_nil d.footer, Extraction.linewise_remarks _ _ hr,
      List.append_nil]
    rfl

/-- The comments that are read off a document are those it was written with. -/
theorem extract_text : Comment.extract d.text = d.comments := by
  have hgrouped : ∀ (record : Text → Comment) (ls : List Line), Comment.grouped record ls =
      (if ls.isEmpty then none else some (Text.unlines ls)).toList.map record := fun record ls => by
    rw [Comment.grouped]
    split <;> rfl
  have hlines : d.lines = (if d.header.isEmpty then [] else d.header ++ [[]]) ++
      (d.enumLines ++ d.tables.flatMap (·.fullLines) ++
        (d.refLines ++ [[]] ++ (if d.footer.isEmpty then [] else [] :: d.footer))) := by
    simp only [lines, List.append_assoc]
  rw [Comment.extract_eq_linewise fun l hl => (isOwnUnit_of_mem_lines (d.lines_text ▸ hl)).2,
    d.lines_text, hlines, linewise_header, linewise_definitions, linewise_rest, comments,
    Comment.assigned, hgrouped, hgrouped]

end Document

/-! ## Merging -/

namespace Merging

variable {m : Merging} {cs : List Comment}

/-- Outside of the tables every line stands alone. -/
theorem dressings_of_idle (cs : List Comment) {ls : List Line} (hs : m.scan.table? = none)
    (hls : ∀ l ∈ ls, Line.tableHeader? (Text.trim l) = none) :
    (m.dressings cs ls).flatMap Dressing.lines = ls := by
  induction ls generalizing m with
  | nil => rfl
  | cons l ls ih =>
    have hl := hls l List.mem_cons_self
    have hnext : (m.next cs l).scan.table? = none := by
      rw [next_scan]
      exact TableScan.pass_table?_of_idle hs hl
    rw [dressings, List.flatMap_cons, Dressing.lines, above_of_idle hl hs, kept_of_idle hl hs,
      ih hnext fun k hk => hls k (List.mem_cons_of_mem l hk)]
    rfl

/-- The body of a table gets back the comments inside of it and those of its fields. -/
theorem dressings_body {t : Text} (hm : m.scan.Alike (.within t)) {fs : List FieldText}
    (hends : ∀ f ∈ fs, Comment.inlineText? cs t f.name = f.comment?) :
    (m.dressings cs (fs.map (·.line) ++ [Line.close])).flatMap Dressing.lines =
      (if m.filled then [] else (Comment.textsOn cs .field t).flatMap Text.lines) ++
        (fs.map (·.fullLine) ++ [Line.close]) := by
  have hb : m.scan.bodyTable? = some t := hm.bodyTable?
  -- What is to be put into the body stands above the first line of it.
  have habove : ∀ {l : Line}, Line.tableHeader? (Text.trim l) = none → m.above cs l =
      if m.filled then [] else (Comment.textsOn cs .field t).flatMap Text.lines := fun hl => by
    rw [above_of_none hl, hb]
  induction fs generalizing m with
  | nil =>
    have hkept : m.kept cs Line.close = Line.close := by
      rw [kept_eq, TableScan.see_of_none rfl, hm.table]
      rfl
    show (m.above cs Line.close ++ [m.kept cs Line.close]) ++ [] = _
    rw [habove rfl, hkept, List.append_nil]
    rfl
  | cons f fs ih =>
    have ht := f.tableHeader?_line
    obtain ⟨ho, hc⟩ := f.braces_line
    have hkept : m.kept cs f.line = f.fullLine := by
      have htable : m.scan.table? = some t := hm.table
      rw [kept_eq, TableScan.see_of_none ht, htable, f.fieldName?_line]
      dsimp only
      rw [f.isBare_line.noMark, if_neg Bool.false_ne_true, hends f List.mem_cons_self,
        FieldText.fullLine]
      cases f.comment? with
      | none => rfl
      | some c =>
        show Line.withComment f.line c = _
        rw [Line.withComment, if_neg f.getLast?_line]
    have hnext : (m.next cs f.line).scan.Alike (.within t) := by
      rw [next_scan]
      exact (m.scan.alike_pass ht ho hc).trans hm
    -- After the first field, the body is filled.
    have hfilled : (m.next cs f.line).filled = true := by
      rw [next_filled ht, hb]
      exact Bool.or_true _
    rw [List.map_cons, List.cons_append, dressings, List.flatMap_cons, Dressing.lines, habove ht,
      hkept, ih hnext (fun g hg => hends g (List.mem_cons_of_mem f hg)) hnext.bodyTable?
        (fun hl => by rw [above_of_none hl, hnext.bodyTable?]; rfl), hfilled, List.append_assoc]
    rfl

/-- A table gets back all of its comments. -/
theorem dressings_tableText (hm : m.scan.Alike .start) {t : TableText}
    (habove : (Comment.textsOn cs .table t.name).flatMap Text.lines = t.above)
    (hinside : (Comment.textsOn cs .field t.name).flatMap Text.lines = t.inside)
    (hends : ∀ f ∈ t.fields, Comment.inlineText? cs t.name f.name = f.comment?) :
    (m.dressings cs t.lines).flatMap Dressing.lines = t.fullLines := by
  have hh := t.tableHeader?_header
  have hkept : m.kept cs t.header = t.header := by
    rw [kept_eq, Line.fieldName?_eq_none_of_header hh]
    split <;> simp_all
  have hnext : (m.next cs t.header).scan.Alike (.within t.name) := by
    rw [next_scan]
    exact TableScan.alike_pass_table hm t
  rw [TableText.lines, List.cons_append, dressings, List.flatMap_cons, Dressing.lines,
    above_of_header hh hm.depth, habove, hkept, dressings_body hnext hends,
    next_filled_of_header hh hm.depth, hinside, TableText.fullLines]
  simp

end Merging

namespace Document

variable (d : Document)

/-- The comments of a part of a document, as merging looks them up. -/
theorem flatMap_lines_toList {ls : List Line} (hls : ∀ l ∈ ls, '\n' ∉ l) :
    (if ls.isEmpty then none else some (Text.unlines ls)).toList.flatMap Text.lines = ls := by
  by_cases he : ls = []
  · rw [he]
    rfl
  · rw [List.isEmpty_eq_false_iff.2 he, if_neg Bool.false_ne_true, Option.toList_some,
      List.flatMap_singleton, Text.lines_unlines_of_forall he hls]

theorem nodup_name : (d.tables.map TableText.name).Nodup := d.nodup

/-- What a document says about its comments is found by looking them up. -/
theorem lookup_comments {t : TableText} (ht : t ∈ d.tables) :
    (Comment.textsOn d.comments .table t.name).flatMap Text.lines = t.above ∧
      (Comment.textsOn d.comments .field t.name).flatMap Text.lines = t.inside ∧
      ∀ f ∈ t.fields, Comment.inlineText? d.comments t.name f.name = f.comment? := by
  have hnl : ∀ l ∈ t.above ++ t.inside, '\n' ∉ l := fun l hl => (t.areNotes l hl).noNewline
  refine ⟨?_, ?_, fun f hf => ?_⟩
  · rw [comments, Comment.textsOn_assigned d.nodup_name ht, Comment.textsOn_records_table,
      TableText.comments]
    exact flatMap_lines_toList fun l hl => hnl l (List.mem_append_left _ hl)
  · rw [comments, Comment.textsOn_assigned d.nodup_name ht, Comment.textsOn_records_field]
    exact Text.flatMap_lines_of_forall fun l hl => hnl l (List.mem_append_right _ hl)
  · rw [comments, Comment.inlineText?_assigned d.nodup_name (fun t _ => t.noDot) ht]
    -- All comments for the name of the field are that of the field.
    have hsame : ∀ e ∈ t.comments.ends.filter (·.1 = f.name), f.comment? = some e.2 := by
      intro e he
      obtain ⟨hmem, hname⟩ := List.mem_filter.1 he
      obtain ⟨g, hg, heq⟩ := List.mem_filterMap.1 hmem
      obtain ⟨c, hc, rfl⟩ := Option.map_eq_some_iff.1 heq
      rw [← hc]
      exact t.sameComment f hf g hg (of_decide_eq_true hname).symm
    cases hl : (t.comments.ends.filter (·.1 = f.name)).getLast? with
    | some e => exact (hsame e (List.mem_of_getLast? hl)).symm
    | none =>
      cases hc : f.comment? with
      | none => rfl
      | some c =>
        have hmem : (f.name, c) ∈ t.comments.ends.filter (·.1 = f.name) :=
          List.mem_filter.2 ⟨List.mem_filterMap.2 ⟨f, hf, by rw [hc]; rfl⟩, decide_eq_true rfl⟩
        rw [List.getLast?_eq_none_iff.1 hl] at hmem
        exact absurd hmem List.not_mem_nil

/-- The comments of a document are full-line comments and comments at the ends of lines,
    without braces. -/
theorem isPlain_of_mem_comments {c : Comment} (hc : c ∈ d.comments) : c.IsPlain := by
  have hnotes : ∀ {ls : List Line} {t : Text}, (∀ l ∈ ls, Line.IsNote l) →
      (if ls.isEmpty then none else some (Text.unlines ls)) = some t →
        ∀ l ∈ Text.lines t, Line.IsRemark l := by
    intro ls t hls h l hl
    split at h
    · cases h
    · next hne =>
      rw [← Option.some.inj h, Text.lines_unlines_of_forall
        (fun he => hne (List.isEmpty_iff.2 he)) fun k hk => (hls k hk).noNewline] at hl
      exact (hls l hl).toIsRemark
  simp only [comments, Comment.assigned, List.mem_append, List.mem_map, List.mem_flatMap,
    Option.mem_toList] at hc
  -- The header, the comments of the tables, and the footer.
  rcases hc with (⟨t, ht, rfl⟩ | ⟨tt, htt, hc⟩) | ⟨t, ht, rfl⟩
  · refine ⟨hnotes (fun l hl => d.areNotes l (List.mem_append_left _ hl)) ht, ?_, ?_⟩ <;> rintro ⟨⟩
  · simp only [TableComments.records, List.mem_append, List.mem_map, Option.mem_toList] at hc
    -- Above the table, inside of it, and at the ends of its fields.
    rcases hc with (⟨t, ht, rfl⟩ | ⟨t, ht, rfl⟩) | ⟨e, he, rfl⟩
    · refine ⟨hnotes (fun l hl => tt.areNotes l (List.mem_append_left _ hl)) ht, ?_, ?_⟩ <;>
        rintro ⟨⟩
    · have hn := tt.areNotes t (List.mem_append_right _ ht)
      refine ⟨fun l hl => ?_, fun _ => hn.noNewline, by rintro ⟨⟩⟩
      rw [show (Comment.inBody t tt.name).text = t from rfl,
        Text.lines_eq_singleton hn.noNewline, List.mem_singleton] at hl
      exact hl ▸ hn.toIsRemark
    · obtain ⟨f, -, heq⟩ := List.mem_filterMap.1 he
      obtain ⟨c, hc, rfl⟩ := Option.map_eq_some_iff.1 heq
      have ht := f.isTail c hc
      refine ⟨fun l hl => ?_, by rintro ⟨⟩, fun _ => ⟨ht.isComment, ht.noNewline⟩⟩
      rw [show (Comment.inline c tt.name f.name).text = c from rfl,
        Text.lines_eq_singleton ht.noNewline, List.mem_singleton] at hl
      rw [hl]
      exact ⟨Line.isComment_of_prefix ht.isComment, Line.opens_eq_zero ht.noOpen,
        Line.closes_eq_zero ht.noClose⟩
  · refine ⟨hnotes (fun l hl => d.areNotes l (List.mem_append_right _ hl)) ht, ?_, ?_⟩ <;> rintro ⟨⟩

/-! ### Part by part -/

/-- The parts of a text in a row, each of which leaves a scan where it was, are merged one
    by one. -/
theorem dressings_flatMap {α : Type} (cs : List Comment) (lines full : α → List Line)
    {as : List α} {m : Merging} (hm : m.scan.Alike .start)
    (hlines : ∀ a ∈ as, ∀ m : Merging, m.scan.Alike .start →
      (m.dressings cs (lines a)).flatMap Dressing.lines = full a)
    (hafter : ∀ a ∈ as, ∀ s : TableScan, s.Alike .start → (s.after (lines a)).Alike .start) :
    (m.dressings cs (as.flatMap lines)).flatMap Dressing.lines = as.flatMap full ∧
      (m.after cs (as.flatMap lines)).scan.Alike .start := by
  induction as generalizing m with
  | nil => exact ⟨rfl, hm⟩
  | cons a as ih =>
    have hnext : (m.after cs (lines a)).scan.Alike .start := by
      rw [Merging.after_scan]
      exact hafter a List.mem_cons_self _ hm
    obtain ⟨hrest, hend⟩ := ih hnext (fun b hb => hlines b (List.mem_cons_of_mem a hb))
      fun b hb => hafter b (List.mem_cons_of_mem a hb)
    rw [List.flatMap_cons, Merging.dressings_append, List.flatMap_append,
      hlines a List.mem_cons_self m hm, hrest, List.flatMap_cons, Merging.after, List.foldl_append]
    exact ⟨rfl, hend⟩

/-- No line of the enums is the header of a table. -/
theorem tableHeader?_of_mem_enumLines {l : Line} (hl : l ∈ d.enumLines) :
    Line.tableHeader? (Text.trim l) = none := by
  rw [enumLines] at hl
  split at hl
  · exact absurd hl List.not_mem_nil
  · simp only [EnumText.lines, List.mem_append, List.mem_flatMap, List.mem_cons, List.mem_map,
      List.not_mem_nil, or_false] at hl
    rcases hl with ⟨e, -, (rfl | ⟨v, -, rfl⟩) | rfl⟩ | rfl
    · exact e.tableHeader?_header
    · exact (Line.opened?_eq_none_iff.1
        (Line.of_trim_eq_quote (EnumText.trim_valueLine v)).1).1
    · rfl
    · rfl

/-- No line of the references is the header of a table. -/
theorem tableHeader?_of_mem_refLines {l : Line} (hl : l ∈ d.refLines) :
    Line.tableHeader? (Text.trim l) = none := by
  rw [refLines] at hl
  split at hl
  · exact absurd hl List.not_mem_nil
  · rcases List.mem_cons.1 hl with rfl | hl
    · rfl
    · obtain ⟨r, -, rfl⟩ := List.mem_map.1 hl
      exact r.tableHeader?_line

/-- A scan is outside of the tables after the enums. -/
theorem alike_after_enumLines : (TableScan.start.after d.enumLines).Alike .start := by
  have henums : ∀ es : List EnumText,
      (TableScan.start.after (es.flatMap (·.lines))).Alike .start := by
    intro es
    induction es using List.reverseRecOn with
    | nil => exact .refl _
    | append_singleton es e ih =>
      rw [List.flatMap_append, List.flatMap_singleton, TableScan.after_append]
      exact TableScan.alike_after_enum ih e
  rw [enumLines]
  split
  · exact .refl _
  · rw [TableScan.after_append]
    exact (henums d.enums).pass []

theorem top_comments :
    Comment.top d.comments = if d.header.isEmpty then [] else d.header ++ [[]] := by
  have hnl : ∀ l ∈ d.header, '\n' ∉ l := fun l hl =>
    (d.areNotes l (List.mem_append_left _ hl)).noNewline
  rw [Comment.top, Comment.linesOf, comments, Comment.textsOf_assigned_header,
    flatMap_lines_toList hnl]
  cases d.header <;> rfl

theorem bottom_comments :
    Comment.bottom d.comments = if d.footer.isEmpty then [] else [] :: d.footer := by
  have hnl : ∀ l ∈ d.footer, '\n' ∉ l := fun l hl =>
    (d.areNotes l (List.mem_append_right _ hl)).noNewline
  rw [Comment.bottom, Comment.linesOf, comments, Comment.textsOf_assigned_footer,
    flatMap_lines_toList hnl]
  cases d.footer <;> rfl

/-- Merging the comments of a document into it without its comments gives the document. -/
theorem merge_bareText : Comment.merge d.comments d.bareText = d.text := by
  let m := Merging.start.after d.comments d.enumLines
  have hm : m.scan.Alike .start := by
    rw [Merging.after_scan]
    exact d.alike_after_enumLines
  have henums : (Merging.start.dressings d.comments d.enumLines).flatMap Dressing.lines =
      d.enumLines := Merging.dressings_of_idle _ rfl fun l hl => d.tableHeader?_of_mem_enumLines hl
  obtain ⟨htables, hend⟩ := dressings_flatMap d.comments TableText.lines TableText.fullLines hm
    (fun t ht m hm => by
      obtain ⟨habove, hinside, hends⟩ := d.lookup_comments ht
      exact Merging.dressings_tableText hm habove hinside hends)
    fun t _ s hs => TableScan.alike_after_table hs t
  -- Neither the references nor the last line is in a table, so that they are left alone.
  have hheader : ∀ l ∈ d.refLines ++ [[]], Line.tableHeader? (Text.trim l) = none := by
    intro l hl
    rcases List.mem_append.1 hl with hl | hl
    · exact d.tableHeader?_of_mem_refLines hl
    · rw [List.mem_singleton.1 hl]
      rfl
  have hrest := Merging.dressings_of_idle d.comments hend.table hheader
  have hall : (Merging.start.dressings d.comments d.bareLines).flatMap Dressing.lines =
      d.enumLines ++ (d.tables.flatMap (·.fullLines) ++ (d.refLines ++ [[]])) := by
    rw [bareLines, List.append_assoc, List.append_assoc, Merging.dressings_append,
      List.flatMap_append, henums, Merging.dressings_append, List.flatMap_append]
    exact congrArg (d.enumLines ++ ·) (congrArg₂ (· ++ ·) htables hrest)
  refine Text.lines_inj.1 ?_
  rw [Comment.lines_merge fun c hc => d.isPlain_of_mem_comments hc, d.lines_bareText, d.lines_text,
    top_comments, bottom_comments, hall, lines]
  simp only [List.append_assoc]

end Document

end DbmlRestore
