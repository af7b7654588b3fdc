import DbmlRestore.Proofs.Comment.Rereading

/-!
# Tables as sections

The lines of a schema fall into *sections*, one for each table header: the header and
the lines that are reached while its table is the current one, each with the depth at
which it stands (`TableSection`). Lines outside of the tables are in no section.

What is read off a merged text is read section by section
(`Comment.extract_merge_eq_sections`): the comments of the table, unless its header is
the first definition, then those inside of the body, and then those at the ends of the
lines (`TableSection.records`).
-/

namespace DbmlRestore

/-- The lines of one table of a schema. -/
structure TableSection where
  /-- The table. -/
  table : Text
  /-- Whether no table or enum header stands before its own. -/
  first : Bool
  /-- The header and the lines reached while the table is the current one, with the
      depths before them. -/
  lines : List (Int × Line)
deriving Repr, DecidableEq

namespace TableSection

/-- The lines that still belong to the current table, and the sections that follow;
    `defined` tells whether there was a definition already. -/
def ofLinesFrom (defined : Bool) (s : TableScan) : List Line → List (Int × Line) × List TableSection
  | [] => ([], [])
  | l :: ls =>
    let (here, later) := ofLinesFrom (defined || Line.isDefinition l) (s.pass l) ls
    match Line.tableHeader? (Text.trim l) with
    | some h => ([], ⟨h.table, !defined, (s.depth, l) :: here⟩ :: later)
    | none => (if s.table?.isSome then (s.depth, l) :: here else [], later)

/-- The sections of a text, in order. -/
def ofText (t : Text) : List TableSection := (ofLinesFrom false .start (Text.lines t)).2

/-- The quoted names that lines of the section start with, in order. -/
def fields (sec : TableSection) : List Text :=
  sec.lines.filterMap fun p => Line.fieldName? (Text.trim p.2)

variable {d : Bool} {s : TableScan} {l : Line} {ls : List Line}

/-- A header of a table starts a section of its own. -/
theorem ofLinesFrom_of_header {h : TableHeader} (hl : Line.tableHeader? (Text.trim l) = some h) :
    ofLinesFrom d s (l :: ls) =
      ([], ⟨h.table, !d, (s.depth, l) :: (ofLinesFrom true (s.pass l) ls).1⟩ ::
        (ofLinesFrom true (s.pass l) ls).2) := by
  have hdef : Line.isDefinition l = true := by rw [Line.isDefinition, hl]; rfl
  rw [ofLinesFrom, hdef, Bool.or_true, hl]

/-- A line that is no header belongs to the current table, if there is one. -/
theorem ofLinesFrom_of_none (hl : Line.tableHeader? (Text.trim l) = none) :
    ofLinesFrom d s (l :: ls) =
      (if s.table?.isSome then
          (s.depth, l) :: (ofLinesFrom (d || Line.isDefinition l) (s.pass l) ls).1
        else [],
        (ofLinesFrom (d || Line.isDefinition l) (s.pass l) ls).2) := by
  rw [ofLinesFrom, hl]

/-- Outside of the tables no line belongs to a table until a header follows. -/
theorem fst_ofLinesFrom_of_idle (hs : s.table? = none) : (ofLinesFrom d s ls).1 = [] := by
  cases ls with
  | nil => rfl
  | cons l ls =>
    cases hl : Line.tableHeader? (Text.trim l) with
    | some h => rw [ofLinesFrom_of_header hl]
    | none => rw [ofLinesFrom_of_none hl, hs]; rfl

/-! ## What is read at a section -/

section Records

variable (cs : List Comment) (table : Text)

/-- The comment that is read at the end of a line. -/
def endRecord (l : Line) : List Comment :=
  match Line.fieldName? (Text.trim l) with
  | some field => ((Comment.inlineText? cs table field).map (.inline · table field)).toList
  | none => []

/-- The comments that are read at lines of a table; `filled` tells whether those inside
    of the body have been read already. -/
def bodyRecords (filled : Bool) : List (Int × Line) → List Comment
  | [] => []
  | (depth, l) :: ls =>
    (if 0 < depth ∧ filled = false then
        ((Comment.textsOn cs .field table).flatMap Text.lines).map (.inBody · table)
      else []) ++
      endRecord cs table l ++ bodyRecords (filled || 0 < depth) ls

end Records

theorem bodyRecords_header {cs : List Comment} {table : Text} {l : Line} {h : TableHeader}
    (hl : Line.tableHeader? (Text.trim l) = some h) (ls : List (Int × Line)) :
    bodyRecords cs table false ((0, l) :: ls) = bodyRecords cs table false ls := by
  rw [bodyRecords, endRecord, Line.fieldName?_eq_none_of_header hl]
  rfl

/-- The comments that are read at a section. -/
def records (cs : List Comment) (sec : TableSection) : List Comment :=
  (if sec.first then []
    else Comment.grouped (.onTable · sec.table)
      ((Comment.textsOn cs .table sec.table).flatMap Text.lines)) ++
    bodyRecords cs sec.table false sec.lines

end TableSection

namespace Merging

variable {m : Merging} {cs : List Comment} {l : Line} {ls : List Line}

/-- The comment that was put at the end of a line is read again. -/
theorem inlineOf_kept (hcs : ∀ c ∈ cs, c.IsPlain) (hl : Line.IsBare l) (hnl : '\n' ∉ l)
    (hcr : '\r' ∉ l) (ht : Line.tableHeader? (Text.trim l) = none) {t : Text}
    (hs : m.scan.table? = some t) :
    Extraction.inlineOf ⟨m.scan, true, []⟩ (m.kept cs l) = TableSection.endRecord cs t l := by
  have hbare := Extraction.inlineOf_of_bare ⟨m.scan, true, []⟩ hl
  rw [TableSection.endRecord, kept_eq, TableScan.see_of_none ht, hs]
  cases hf : Line.fieldName? (Text.trim l) with
  | none => exact hbare
  | some field =>
    show Extraction.inlineOf _ (if Text.holds Line.commentMark l = true then _ else _) =
      ((Comment.inlineText? cs t field).map (.inline · t field)).toList
    -- A bare line has no mark, so that the comment is put at its end and found there.
    rw [hl.noMark, if_neg Bool.false_ne_true]
    cases hc : Comment.inlineText? cs t field with
    | none => exact hbare
    | some comment =>
      obtain ⟨c, hmem, hk, -, rfl⟩ := Comment.exists_of_inlineText?_eq_some hc
      obtain ⟨hmark, hnc⟩ := (hcs c hmem).inline hk
      have hwith : Line.withComment l c.text = l ++ ' ' :: c.text := by
        rw [Line.withComment, if_neg fun h => hcr (List.mem_of_getLast? h)]
      show Extraction.inlineOf _ (Line.withComment l c.text) = [.inline c.text t field]
      rw [hwith]
      exact Extraction.inlineOf_append_space _ hs hl hnl hf hmark hnc

/-- After the first definition, the records of the lines that follow are those of the
    lines of the current table, `t` if there is one, and of the sections after it. -/
theorem records_eq_sections (hcs : ∀ c ∈ cs, c.IsPlain) (hls : ∀ l ∈ ls, Line.IsBare l)
    (hnl : ∀ l ∈ ls, '\n' ∉ l) (hcr : ∀ l ∈ ls, '\r' ∉ l)
    (hz : Line.AtZero Line.IsTableHeader m.scan.depth ls)
    {t : Text} (ht : m.scan.table? = none ∨ m.scan.table? = some t) :
    m.records cs ls =
      TableSection.bodyRecords cs t m.filled (TableSection.ofLinesFrom true m.scan ls).1 ++
        (TableSection.ofLinesFrom true m.scan ls).2.flatMap (TableSection.records cs) := by
  induction ls generalizing m t with
  | nil => rfl
  | cons l ls ih =>
    have hz' := atZero_next cs hz
    have ih' := fun {t : Text} => ih (m := m.next cs l) (t := t)
      (fun k hk => hls k (List.mem_cons_of_mem l hk))
      (fun k hk => hnl k (List.mem_cons_of_mem l hk))
      (fun k hk => hcr k (List.mem_cons_of_mem l hk)) hz'
    rw [next_scan] at ih'
    rw [records, recordsAt]
    cases hl : Line.tableHeader? (Text.trim l) with
    | some h =>
      have hd : m.scan.depth = 0 := hz.head (Option.isSome_of_eq_some hl)
      have hnext := m.scan.pass_table?_eq l
      rw [TableScan.see_of_header hl, TableScan.enter_table?] at hnext
      rw [TableSection.ofLinesFrom_of_header hl, ih' hnext, above_of_header hl hd,
        next_filled_of_header hl hd, List.flatMap_cons, TableSection.records, hd,
        TableSection.bodyRecords_header hl, ← List.append_assoc]
      rfl
    | none =>
      rw [TableSection.ofLinesFrom_of_none hl, Bool.true_or, next_filled hl] at *
      rcases ht with hs | hs
      · -- Outside of the tables there is nothing to read.
        have hnext := TableScan.pass_table?_of_idle hs hl
        have hb : m.scan.bodyTable? = none := by rw [TableScan.bodyTable?, hs, ite_self]
        rw [ih' (t := t) (.inl hnext), Extraction.inlineOf_of_idle _ hs, hb, hs,
          TableSection.fst_ofLinesFrom_of_idle hnext]
        rfl
      · have hnext := m.scan.pass_table?_eq l
        rw [TableScan.see_of_none hl, hs] at hnext
        rw [ih' hnext, inlineOf_kept hcs (hls l List.mem_cons_self) (hnl l List.mem_cons_self)
          (hcr l List.mem_cons_self) hl hs, above_of_none hl, hs, TableScan.bodyTable?, hs]
        show _ = TableSection.bodyRecords cs t m.filled ((m.scan.depth, l) :: _) ++ _
        rw [TableSection.bodyRecords, ← List.append_assoc]
        congr 1
        by_cases hd : 0 < m.scan.depth
        · cases hf : m.filled <;> simp [hd]
        · simp [hd]

end Merging

/-! ## The whole text -/

namespace TableSection

/-- Lines before the first definition are in no section. -/
theorem snd_ofLinesFrom_of_undefined {s : TableScan} {pre ls : List Line}
    (hpre : ∀ l ∈ pre, Line.isDefinition l = false) :
    (ofLinesFrom false s (pre ++ ls)).2 = (ofLinesFrom false (s.after pre) ls).2 := by
  induction pre generalizing s with
  | nil => rfl
  | cons l pre ih =>
    have hl := hpre l List.mem_cons_self
    rw [List.cons_append, ofLinesFrom_of_none (Line.isDefinition_eq_false_iff.1 hl).1, hl,
      TableScan.after_cons]
    exact ih fun k hk => hpre k (List.mem_cons_of_mem l hk)

end TableSection

namespace Comment

variable {cs : List Comment} {t : Text}

/-- A text with a definition has a first one. -/
theorem exists_first_definition {ls : List Line} (h : ∃ l ∈ ls, Line.isDefinition l = true) :
    ∃ pre l post, ls = pre ++ l :: post ∧ (∀ k ∈ pre, Line.isDefinition k = false) ∧
      Line.isDefinition l = true := by
  obtain ⟨l, hl, hdef⟩ := h
  obtain ⟨k, hk⟩ := Option.isSome_iff_exists.1 (List.find?_isSome.2 ⟨l, hl, hdef⟩)
  obtain ⟨hdef', pre, post, rfl, hpre⟩ := List.find?_eq_some_iff_append.1 hk
  exact ⟨pre, k, post, rfl, fun q hq => by simpa using hpre q hq, hdef'⟩

/-- The comments of a merged text, section by section. The comments of the table whose
    header is the first definition would be read with the header of the schema, so there
    must be none. -/
theorem extract_merge_eq_sections (hcs : ∀ c ∈ cs, c.IsPlain)
    (ht : ∀ l ∈ Text.lines t, Line.IsBare l) (hcr : ∀ l ∈ Text.lines t, '\r' ∉ l)
    (hz : Line.AtZero Line.IsTableHeader 0 (Text.lines t))
    (hbal : Line.depthOf (Text.lines t) = 0) (hdef : ∃ l ∈ Text.lines t, Line.isDefinition l = true)
    (hfirst : ∀ sec ∈ TableSection.ofText t, sec.first = true → textsOn cs .table sec.table = []) :
    extract (merge cs t) =
      grouped .header (linesOf cs .header) ++
        (TableSection.ofText t).flatMap (TableSection.records cs) ++
        grouped .footer (linesOf cs .footer) := by
  obtain ⟨pre, l, post, hlines, hpre, hl⟩ := exists_first_definition hdef
  have hmem : ∀ k ∈ post, k ∈ Text.lines t := fun k hk => by
    rw [hlines]
    exact List.mem_append_right _ (List.mem_cons_of_mem l hk)
  -- The state after the first definition, and what its scan has seen.
  let m := Merging.start.after cs pre
  have hscan : m.scan = TableScan.start.after pre := Merging.after_scan ..
  have hzl : Line.AtZero Line.IsTableHeader m.scan.depth (l :: post) := by
    rw [hlines] at hz
    exact Merging.atZero_after cs hz
  have hzpost := Merging.atZero_next cs hzl
  have hidle : m.scan.table? = none :=
    (Extraction.linewise_dressings_of_undefined (m := .start) cs
      (fun k hk => ht k (hlines ▸ List.mem_append_left _ hk)) hpre rfl [] []).2
  have hsec : TableSection.ofText t = (TableSection.ofLinesFrom false m.scan (l :: post)).2 := by
    rw [TableSection.ofText, hlines, TableSection.snd_ofLinesFrom_of_undefined hpre, hscan]
  have hrec := fun {t} => Merging.records_eq_sections (m := m.next cs l) (t := t) hcs
    (fun k hk => ht k (hmem k hk)) (fun k hk => Text.newline_not_mem (hmem k hk))
    (fun k hk => hcr k (hmem k hk)) hzpost
  rw [extract_merge_of_definition hcs ht hz hbal hlines hpre hl]
  congr 1
  show grouped .header (_ ++ m.above cs l) ++ (m.next cs l).records cs post = _
  cases htab : Line.tableHeader? (Text.trim l) with
  | some h =>
    have hd : m.scan.depth = 0 := hzl.head (Option.isSome_of_eq_some htab)
    rw [TableSection.ofLinesFrom_of_header htab] at hsec
    have habove : m.above cs l = [] := by
      rw [Merging.above_of_header htab hd,
        hfirst ⟨h.table, true, _⟩ (by rw [hsec]; exact List.mem_cons_self) rfl]
      rfl
    have hnext := m.scan.pass_table?_eq l
    rw [TableScan.see_of_header htab, TableScan.enter_table?, ← Merging.next_scan m cs] at hnext
    rw [habove, List.append_nil, hrec hnext, hsec, Merging.next_scan,
      Merging.next_filled_of_header htab hd, List.flatMap_cons, TableSection.records, hd,
      TableSection.bodyRecords_header htab]
    rfl
  | none =>
    have hnext : (m.next cs l).scan.table? = none := by
      rw [Merging.next_scan]
      exact TableScan.pass_table?_of_idle hidle htab
    rw [TableSection.ofLinesFrom_of_none htab, hl, ← Merging.next_scan m cs] at hsec
    rw [Merging.above_of_idle htab hidle, List.append_nil, hrec (t := []) (.inl hnext), hsec,
      TableSection.fst_ofLinesFrom_of_idle hnext]
    rfl

end Comment

end DbmlRestore
