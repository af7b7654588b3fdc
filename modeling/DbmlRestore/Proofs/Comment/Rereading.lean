import DbmlRestore.Proofs.Comment.Dressing

/-!
# Reading a merged text

Extraction goes over a merged text and meets three sorts of lines: remarks, which it
records in a body and keeps waiting elsewhere (`Extraction.linewise_remarks`), table and
enum headers, where those that wait are recorded, and the other lines of the text,
which may end in a comment.

A text without block comments is read line by line (`Extraction.linewise`). Before the
first definition nothing is recorded (`linewise_dressings_of_undefined`); from then on,
each line of the text is read together with what was put above it
(`linewise_dressings`), and gives the records `Merging.recordsAt`. So the comments of a
merged text are known from the text and the comments that were merged
(`Comment.extract_merge_of_definition`).
-/

namespace DbmlRestore

/-! ## Unit by unit -/

/-- Whether a unit is a comment: its first line is one, or opens a block comment. -/
def CommentUnit.IsComment (u : CommentUnit) : Prop :=
  Line.isComment (Text.trim u.first) = true ∨ Line.opensComment (Text.trim u.first) = true

instance : DecidablePred CommentUnit.IsComment := fun _ => inferInstanceAs (Decidable (_ ∨ _))

/-- A comment defines nothing. -/
theorem CommentUnit.IsComment.isDefinition_eq_false {u : CommentUnit} (hu : u.IsComment) :
    Line.isDefinition u.first = false := by
  obtain ⟨rest, hrest⟩ : ∃ rest, Text.trim u.first = '/' :: rest := by
    rcases hu with hu | hu
    · exact (Line.isComment_iff.1 hu).imp' _ fun _ h => h
    · obtain ⟨rest, h⟩ := List.isPrefixOf_iff_prefix.1 hu
      exact ⟨'*' :: rest, h.symm⟩
  obtain ⟨ht, he, -⟩ := Line.opened?_eq_none_iff.1
    (Line.opened?_cons_of_ne (c := '/') (by decide) (by decide) (by decide) rest)
  exact Line.isDefinition_eq_false_iff.2 ⟨hrest ▸ ht, hrest ▸ he⟩

/-- A unit is the header of a table or of an enum, or a comment, or other text. -/
theorem CommentUnit.cases_first (u : CommentUnit) :
    (∃ h, Line.tableHeader? (Text.trim u.first) = some h) ∨
      (Line.tableHeader? (Text.trim u.first) = none ∧
        Line.isEnumHeader (Text.trim u.first) = true) ∨
      u.IsComment ∨ (Line.isDefinition u.first = false ∧ ¬ u.IsComment) := by
  cases ht : Line.tableHeader? (Text.trim u.first) with
  | some h => exact .inl ⟨h, rfl⟩
  | none =>
    cases he : Line.isEnumHeader (Text.trim u.first) with
    | true => exact .inr (.inl ⟨rfl, rfl⟩)
    | false =>
      by_cases hcomment : u.IsComment
      · exact .inr (.inr (.inl hcomment))
      · exact .inr (.inr (.inr ⟨Line.isDefinition_eq_false_iff.2 ⟨ht, he⟩, hcomment⟩))

namespace Extraction

variable (e : Extraction) {u : CommentUnit}

/-- A table header takes the comments that wait. -/
theorem step_of_header {h : TableHeader} (hu : Line.tableHeader? (Text.trim u.first) = some h) :
    e.step u = ((e.enterTable h.table).1, ⟨e.scan.pass u.first, true, []⟩) := by
  have hc : e.classify u = e.enterTable h.table := by simp only [classify, hu]
  rw [step, hc, TableScan.pass, TableScan.see_of_header hu]
  rfl

/-- An enum header outside of the tables takes them as well. -/
theorem step_of_enum (hu : Line.tableHeader? (Text.trim u.first) = none)
    (hen : Line.isEnumHeader (Text.trim u.first) = true) :
    e.step u = (e.enterEnum.1, ⟨e.scan.pass u.first, true, e.enterEnum.2.pending⟩) := by
  have hc : e.classify u = e.enterEnum := by
    simp only [classify, hu]
    exact if_pos hen
  rw [step, hc, TableScan.pass, TableScan.see_of_none hu, enterEnum]
  cases e.scan.table? <;> rfl

/-- A comment is recorded in a body, and waits elsewhere. -/
theorem step_of_comment (hu : u.IsComment) :
    e.step u = ((e.addComment u.text).1,
      ⟨e.scan.pass u.first, e.defined, (e.addComment u.text).2.pending⟩) := by
  obtain ⟨ht, he⟩ := Line.isDefinition_eq_false_iff.1 hu.isDefinition_eq_false
  have hc : e.classify u = e.addComment u.text := by
    simp only [classify, ht, he, Bool.false_eq_true, if_false]
    exact if_pos (Bool.or_eq_true_iff.2 hu)
  rw [step, hc, TableScan.pass, TableScan.see_of_none ht, addComment]
  cases e.scan.bodyTable? <;> rfl

/-- Other text may end in a comment. -/
theorem step_of_other (hdef : Line.isDefinition u.first = false) (hu : ¬ u.IsComment) :
    e.step u = (e.inlineOf u.first, { e with scan := e.scan.pass u.first }) := by
  obtain ⟨ht, he⟩ := Line.isDefinition_eq_false_iff.1 hdef
  have hc : e.classify u = (e.inlineOf u.first, e) := by
    simp only [classify, ht, he, Bool.false_eq_true, if_false]
    exact if_neg (mt Bool.or_eq_true_iff.1 hu)
  rw [step, hc, TableScan.pass, TableScan.see_of_none ht]

/-- Whatever a unit is, its first line is passed, and kept in mind if it is a definition. -/
theorem step_snd (u : CommentUnit) : (e.step u).2 = ⟨e.scan.pass u.first,
    e.defined || Line.isDefinition u.first, (e.step u).2.pending⟩ := by
  rcases u.cases_first with ⟨h, ht⟩ | ⟨ht, he⟩ | hcomment | ⟨hdef, hcomment⟩
  · rw [step_of_header e ht, Line.isDefinition, ht, Option.isSome_some, Bool.true_or, Bool.or_true]
  · rw [step_of_enum e ht he, Line.isDefinition, he, Bool.or_true, Bool.or_true]
  · rw [step_of_comment e hcomment, hcomment.isDefinition_eq_false, Bool.or_false]
  · rw [step_of_other e hdef hcomment, hdef, Bool.or_false]

end Extraction

/-! ## Line by line -/

/-- A line as a unit of its own. -/
def CommentUnit.single (l : Line) : CommentUnit := ⟨l, []⟩

theorem CommentUnit.text_single (l : Line) : (single l).text = l := Text.unlines_singleton l

/-- Without block comments every line is a unit. -/
theorem CommentUnit.ofLines_eq_map {ls : List Line}
    (h : ∀ l ∈ ls, Line.opensComment (Text.trim l) = false) : ofLines ls = ls.map single := by
  induction ls with
  | nil => rfl
  | cons l ls ih =>
    have hl : isOpenEnded l = false := by rw [isOpenEnded, h l List.mem_cons_self]; rfl
    rw [ofLines, ofLinesFrom, hl, if_neg Bool.false_ne_true, List.map_cons]
    exact congrArg _ (ih fun k hk => h k (List.mem_cons_of_mem l hk))

namespace Extraction

/-- The comments of lines none of which opens a block comment. -/
def linewise (e : Extraction) (ls : List Line) : List Comment := e.run (ls.map CommentUnit.single)

variable (e : Extraction) {l : Line} (ls : List Line)

theorem linewise_cons (l : Line) :
    e.linewise (l :: ls) = (e.step (.single l)).1 ++ (e.step (.single l)).2.linewise ls := rfl

/-- What is found does not hang on how the scan got to where it is. -/
theorem linewise_congr {s s' : TableScan} (h : s.Alike s') (d : Bool) (p : List Text) :
    linewise ⟨s, d, p⟩ ls = linewise ⟨s', d, p⟩ ls := by
  induction ls generalizing s s' d p with
  | nil => rfl
  | cons l ls ih =>
    have hpass := h.pass l
    rw [linewise_cons, linewise_cons]
    rcases (CommentUnit.single l).cases_first with ⟨hd, ht⟩ | ⟨ht, he⟩ | hcomment | ⟨hdef, hcomment⟩
    · rw [step_of_header _ ht, step_of_header _ ht]
      exact congrArg _ (ih hpass _ _)
    · rw [step_of_enum _ ht he, step_of_enum _ ht he, enterEnum, enterEnum, h.table]
      cases s'.table? <;> exact congrArg _ (ih hpass _ _)
    · rw [step_of_comment _ hcomment, step_of_comment _ hcomment, addComment, addComment,
        h.bodyTable?]
      cases s'.bodyTable? <;> exact congrArg _ (ih hpass _ _)
    · rw [step_of_other _ hdef hcomment, step_of_other _ hdef hcomment, inlineOf, inlineOf, h.table]
      exact congrArg _ (ih hpass _ _)

/-- A table header takes the comments that wait. -/
theorem linewise_header {h : TableHeader} (hl : Line.tableHeader? (Text.trim l) = some h) :
    e.linewise (l :: ls) = (e.enterTable h.table).1 ++ linewise ⟨e.scan.pass l, true, []⟩ ls := by
  rw [linewise_cons, step_of_header e (u := .single l) hl]
  rfl

/-- An enum header outside of the tables takes them as well. -/
theorem linewise_enum (hl : Line.tableHeader? (Text.trim l) = none)
    (hen : Line.isEnumHeader (Text.trim l) = true) :
    e.linewise (l :: ls) = e.enterEnum.1 ++
      linewise ⟨e.scan.pass l, true, e.enterEnum.2.pending⟩ ls := by
  rw [linewise_cons, step_of_enum e (u := .single l) hl hen]
  rfl

/-- Other text may end in a comment. -/
theorem linewise_other (hl : Line.tableHeader? (Text.trim l) = none)
    (hen : Line.isEnumHeader (Text.trim l) = false) (hco : Line.isComment (Text.trim l) = false)
    (hop : Line.opensComment (Text.trim l) = false) :
    e.linewise (l :: ls) = e.inlineOf l ++ linewise { e with scan := e.scan.pass l } ls := by
  have hcomment : ¬ (CommentUnit.single l).IsComment := by
    rintro (h | h)
    · exact Bool.noConfusion (hco.symm.trans h)
    · exact Bool.noConfusion (hop.symm.trans h)
  rw [linewise_cons, step_of_other e (Line.isDefinition_eq_false_iff.2 ⟨hl, hen⟩) hcomment]
  rfl

/-- A remark is recorded in a body, and waits elsewhere. -/
theorem linewise_remark (hl : Line.IsRemark l) :
    e.linewise (l :: ls) =
      match e.scan.bodyTable? with
      | some t => .inBody l t :: e.linewise ls
      | none => linewise { e with pending := e.pending ++ [l] } ls := by
  have hpass := e.scan.alike_pass hl.tableHeader?_eq_none hl.opens_eq hl.closes_eq
  rw [linewise_cons, step_of_comment e (u := .single l) (.inl hl.isComment),
    CommentUnit.text_single, addComment]
  cases e.scan.bodyTable? with
  | none => exact linewise_congr ls hpass _ _
  | some t => exact congrArg _ (linewise_congr ls hpass _ _)

/-- Remarks side by side are recorded one by one, or wait together. -/
theorem linewise_remarks {rs : List Line} (hrs : ∀ r ∈ rs, Line.IsRemark r) :
    e.linewise (rs ++ ls) =
      match e.scan.bodyTable? with
      | some t => rs.map (.inBody · t) ++ e.linewise ls
      | none => linewise { e with pending := e.pending ++ rs } ls := by
  induction rs generalizing e with
  | nil =>
    cases e.scan.bodyTable? with
    | none => rw [List.nil_append, List.append_nil]
    | some t => rfl
  | cons r rs ih =>
    rw [List.cons_append, linewise_remark e _ (hrs r List.mem_cons_self),
      ih _ fun q hq => hrs q (List.mem_cons_of_mem r hq),
      ih _ fun q hq => hrs q (List.mem_cons_of_mem r hq)]
    cases e.scan.bodyTable? with
    | none => show linewise _ ls = linewise _ ls; rw [List.append_assoc]; rfl
    | some t => rfl

/-- An empty line is passed over. -/
theorem linewise_empty : e.linewise ([] :: ls) = e.linewise ls := by
  rw [linewise_other e ls rfl rfl rfl rfl]
  have hin : e.inlineOf [] = [] := by
    rw [inlineOf]
    cases e.scan.table? <;> rfl
  rw [hin, List.nil_append]
  exact linewise_congr ls (e.scan.alike_pass rfl rfl rfl) _ _

/-! ## Dressed lines -/

/-- A line without a mark has no comment at its end. -/
theorem inlineOf_of_bare (hl : Line.IsBare l) : e.inlineOf l = [] := by
  rw [inlineOf, Line.inlineComment?_eq_none hl.noMark]
  cases e.scan.table? <;> rfl

/-- Outside of the tables, no comment at the end of a line is read. -/
theorem inlineOf_of_idle (hs : e.scan.table? = none) (l : Line) : e.inlineOf l = [] := by
  rw [inlineOf, hs]

/-- The comment at the end of the line of a field is recorded for the field. -/
theorem inlineOf_append_space {t c field : Text} (hs : e.scan.table? = some t)
    (hl : Line.IsBare l) (hnl : '\n' ∉ l) (hf : Line.fieldName? (Text.trim l) = some field)
    (hmark : Line.commentMark <+: c) (hnc : '\n' ∉ c) :
    e.inlineOf (l ++ ' ' :: c) = [.inline c t field] := by
  have hne : l ≠ [] := by
    rintro rfl
    exact nomatch hf
  have htrim : Text.trim (l ++ [' ']) = Text.trim l :=
    Text.trim_append_of_blank (List.all_eq_true.1 rfl) l
  rw [inlineOf, hs, Line.inlineComment?_append_space hne hl.noMark hmark hnl hnc]
  show (match Line.fieldName? (Text.trim (l ++ [' '])) with | some _ => _ | none => _) = _
  rw [htrim, hf]

/-- After the first definition, with nothing waiting, a line of the text that is no
    table header gives what stands at its end. -/
theorem linewise_dressed {s : TableScan} {l' : Line} (hd : Line.Dressed l l') (hl : Line.IsBare l)
    (ht : Line.tableHeader? (Text.trim l) = none) :
    linewise ⟨s, true, []⟩ (l' :: ls) =
      inlineOf ⟨s, true, []⟩ l' ++ linewise ⟨s.pass l, true, []⟩ ls := by
  have hpass := s.alike_pass_of_continues hd.continues
  cases he : Line.isEnumHeader (Text.trim l) with
  | true =>
    -- An enum header starts with a letter, so it is no field and took no comment.
    have hl' : l' = l := by
      rcases hd.continues.trim_eq with h | ⟨field, u, hf, -⟩
      · exact h
      · have := (Line.opened?_eq_none_iff.1 (Line.of_fieldName? hf []).1).2.1
        rw [List.append_nil, he] at this
        exact nomatch this
    rw [hl', linewise_enum _ _ ht he, inlineOf_of_bare _ hl, enterEnum]
    cases s.table? <;> rfl
  | false =>
    rw [linewise_other _ _ (hd.continues.tableHeader?_eq.trans ht)
      (hd.continues.isEnumHeader_eq.trans he)
      (hd.continues.isComment_eq.trans hl.isComment_eq_false)
      (hd.continues.opensComment_eq.trans hl.noOpening)]
    exact congrArg _ (linewise_congr ls hpass _ _)

end Extraction

/-- The comment made of some lines, if there are any. -/
def Comment.grouped (record : Text → Comment) (ls : List Line) : List Comment :=
  if ls.isEmpty then [] else [record (Text.unlines ls)]

namespace Merging

variable (m : Merging) (cs : List Comment) (l : Line)

/-- The comments that are read at a line of the text, once there is a definition: those
    above it, which belong to the table of a header or stand in a body, and the one at
    its end. -/
def recordsAt : List Comment :=
  match Line.tableHeader? (Text.trim l) with
  | some h => Comment.grouped (.onTable · h.table) (m.above cs l)
  | none =>
    (match m.scan.bodyTable? with
      | some t => (m.above cs l).map (.inBody · t)
      | none => []) ++
      Extraction.inlineOf ⟨m.scan, true, []⟩ (m.kept cs l)

/-- The comments that are read at the lines that follow. -/
def records (m : Merging) (cs : List Comment) : List Line → List Comment
  | [] => []
  | l :: ls => m.recordsAt cs l ++ (m.next cs l).records cs ls

end Merging

namespace Extraction

variable {m : Merging} {cs : List Comment} {l : Line}

/-- One line of the text, with what was put above it, after the first definition. -/
theorem linewise_dressing (hcs : ∀ c ∈ cs, c.IsPlain) (hl : Line.IsBare l)
    (hz : (Line.tableHeader? (Text.trim l)).isSome → m.scan.depth = 0) (ls : List Line) :
    linewise ⟨m.scan, true, []⟩ (m.above cs l ++ m.kept cs l :: ls) =
      m.recordsAt cs l ++ linewise ⟨(m.next cs l).scan, true, []⟩ ls := by
  have hd : Line.Dressed l (m.kept cs l) := Merging.kept_dressed hcs
  rw [linewise_remarks _ _ fun r hr => Merging.isRemark_of_mem_above hcs hr, Merging.recordsAt,
    Merging.next_scan]
  cases ht : Line.tableHeader? (Text.trim l) with
  | some h =>
    -- At depth zero the remarks above the header wait, and the header takes them.
    rw [TableScan.bodyTable?_of_depth_eq_zero (hz (by rw [ht]; rfl))]
    show linewise _ _ = _
    rw [linewise_header _ _ (hd.continues.tableHeader?_eq.trans ht)]
    exact congrArg _ (linewise_congr ls (m.scan.alike_pass_of_continues hd.continues) _ _)
  | none =>
    show _ = (_ ++ inlineOf _ _) ++ _
    rw [List.append_assoc, ← linewise_dressed ls hd hl ht]
    cases hb : m.scan.bodyTable? with
    | some t => rfl
    | none =>
      have habove : m.above cs l = [] := by rw [Merging.above_of_none ht, hb]
      rw [habove]
      rfl

/-- The lines of the text, with what was put above them, after the first definition. -/
theorem linewise_dressings (hcs : ∀ c ∈ cs, c.IsPlain) {ls : List Line}
    (hls : ∀ l ∈ ls, Line.IsBare l)
    (hz : Line.AtZero Line.IsTableHeader m.scan.depth ls)
    (rest : List Line) :
    linewise ⟨m.scan, true, []⟩ ((m.dressings cs ls).flatMap Dressing.lines ++ rest) =
      m.records cs ls ++ linewise ⟨(m.after cs ls).scan, true, []⟩ rest := by
  induction ls generalizing m with
  | nil => rfl
  | cons l ls ih =>
    have hstep := linewise_dressing hcs (hls l List.mem_cons_self) hz.head
      (((m.next cs l).dressings cs ls).flatMap Dressing.lines ++ rest)
    rw [Merging.dressings, List.flatMap_cons, Dressing.lines, List.append_assoc, List.append_assoc,
      List.singleton_append, hstep, ih fun k hk => hls k (List.mem_cons_of_mem l hk),
      Merging.records, List.append_assoc, Merging.after_cons]
    rw [Merging.next_scan, TableScan.pass_depth]
    exact hz.tail

/-! ## Before the first definition -/

/-- Lines before the first definition are passed over, and what waits goes on waiting. -/
theorem linewise_dressings_of_undefined (cs : List Comment) {ls : List Line}
    (hls : ∀ l ∈ ls, Line.IsBare l) (hdef : ∀ l ∈ ls, Line.isDefinition l = false)
    (hs : m.scan.table? = none) (p : List Text) (rest : List Line) :
    linewise ⟨m.scan, false, p⟩ ((m.dressings cs ls).flatMap Dressing.lines ++ rest) =
        linewise ⟨(m.after cs ls).scan, false, p⟩ rest ∧ (m.after cs ls).scan.table? = none := by
  induction ls generalizing m with
  | nil => exact ⟨rfl, hs⟩
  | cons l ls ih =>
    obtain ⟨ht, he⟩ := Line.isDefinition_eq_false_iff.1 (hdef l List.mem_cons_self)
    have hl := hls l List.mem_cons_self
    have hs' : (m.next cs l).scan.table? = none := by
      rw [Merging.next_scan]
      exact TableScan.pass_table?_of_idle hs ht
    obtain ⟨hrun, hafter⟩ := ih (m := m.next cs l) (fun k hk => hls k (List.mem_cons_of_mem l hk))
      (fun k hk => hdef k (List.mem_cons_of_mem l hk)) hs'
    refine ⟨?_, hafter⟩
    rw [Merging.dressings, List.flatMap_cons, Dressing.lines, Merging.above_of_idle ht hs,
      Merging.kept_of_idle ht hs, List.append_assoc, Merging.after_cons, ← hrun, Merging.next_scan]
    show linewise _ (l :: _) = _
    rw [linewise_other _ _ ht he hl.isComment_eq_false hl.noOpening, inlineOf_of_idle _ hs]
    rfl

/-- The first definition takes what waits, and what was put above it, as the header of
    the schema. -/
theorem linewise_dressing_of_definition (hcs : ∀ c ∈ cs, c.IsPlain)
    (hdef : Line.isDefinition l = true) (hs : m.scan.table? = none) (p : List Text)
    (ls : List Line) :
    linewise ⟨m.scan, false, p⟩ (m.above cs l ++ m.kept cs l :: ls) =
      Comment.grouped .header (p ++ m.above cs l) ++
        linewise ⟨(m.next cs l).scan, true, []⟩ ls := by
  have hb : m.scan.bodyTable? = none := by rw [TableScan.bodyTable?, hs, ite_self]
  have hd : Line.Dressed l (m.kept cs l) := Merging.kept_dressed hcs
  have hpass := m.scan.alike_pass_of_continues hd.continues
  -- The remarks above wait, and are taken for the header of the schema.
  rw [linewise_remarks _ _ fun r hr => Merging.isRemark_of_mem_above hcs hr, hb, Merging.next_scan]
  show linewise ⟨m.scan, false, p ++ m.above cs l⟩ _ = _
  cases ht : Line.tableHeader? (Text.trim l) with
  | some h =>
    rw [linewise_header _ _ (hd.continues.tableHeader?_eq.trans ht)]
    exact congrArg _ (linewise_congr ls hpass _ _)
  | none =>
    have he : Line.isEnumHeader (Text.trim l) = true := by
      rw [Line.isDefinition, ht] at hdef
      exact hdef
    rw [linewise_enum _ _ (hd.continues.tableHeader?_eq.trans ht)
      (hd.continues.isEnumHeader_eq.trans he), enterEnum, hs]
    exact congrArg _ (linewise_congr ls hpass _ _)

/-! ## The header and the footer -/

/-- The comments of the header wait for the first definition. -/
theorem linewise_top (hcs : ∀ c ∈ cs, c.IsPlain) (rest : List Line) :
    start.linewise (Comment.top cs ++ rest) =
      linewise ⟨.start, false, Comment.linesOf cs .header⟩ rest := by
  rw [Comment.top]
  split
  · next h => rw [Comment.linesOf, h]; rfl
  · rw [List.append_assoc,
      linewise_remarks _ _ fun r hr => Comment.isRemark_of_mem_linesOf hcs hr]
    exact linewise_empty _ _

/-- The comments of the footer wait for the end. -/
theorem linewise_bottom (hcs : ∀ c ∈ cs, c.IsPlain) {s : TableScan} (hs : s.depth = 0) (d : Bool)
    (p : List Text) :
    linewise ⟨s, d, p⟩ (Comment.bottom cs) =
      finish ⟨s, d, p ++ Comment.linesOf cs .footer⟩ := by
  rw [Comment.bottom]
  split
  · next h =>
    rw [Comment.linesOf, h, List.flatMap_nil, List.append_nil]
    rfl
  · have hr : ∀ r ∈ Comment.linesOf cs .footer, Line.IsRemark r :=
      fun r hr => Comment.isRemark_of_mem_linesOf hcs hr
    rw [linewise_empty, ← List.append_nil (Comment.linesOf cs .footer), linewise_remarks _ _ hr,
      List.append_nil, TableScan.bodyTable?_of_depth_eq_zero hs]
    rfl

end Extraction

/-! ## The whole text -/

namespace Comment

/-- The comments of a text without block comments. -/
theorem extract_eq_linewise {t : Text}
    (h : ∀ l ∈ Text.lines t, Line.opensComment (Text.trim l) = false) :
    extract t = Extraction.start.linewise (Text.lines t) := by
  rw [extract, CommentUnit.ofLines_eq_map h]
  rfl

variable {cs : List Comment} {t : Text}

/-- Merging plain comments into a text without block comments makes none. -/
theorem opensComment_of_mem_lines_merge (hcs : ∀ c ∈ cs, c.IsPlain)
    (ht : ∀ l ∈ Text.lines t, Line.IsBare l) {l : Line} (hl : l ∈ Text.lines (merge cs t)) :
    Line.opensComment (Text.trim l) = false := by
  have hquiet : l = [] ∨ Line.IsRemark l → Line.opensComment (Text.trim l) = false := by
    rintro (rfl | h)
    · rfl
    · exact h.opensComment_eq_false
  rw [lines_merge hcs] at hl
  rcases List.mem_append.1 hl with hl | hl
  · rcases List.mem_append.1 hl with hl | hl
    · exact hquiet (mem_top hcs hl)
    · obtain ⟨d, hd, hl⟩ := List.mem_flatMap.1 hl
      have hp := Merging.isProper_of_mem_dressings hcs hd
      rcases List.mem_append.1 hl with hl | hl
      · exact hquiet (.inr (hp.above l hl))
      · rw [List.mem_singleton.1 hl, hp.dressed.continues.opensComment_eq]
        exact (ht _ (Merging.line_mem_of_mem_dressings hd)).noOpening
  · exact hquiet (mem_bottom hcs hl)

/-- The comments of a merged text that has a definition `l` after the lines `pre`: the
    header, with what was put above the first definition; the comments of the lines that
    follow; and the footer. -/
theorem extract_merge_of_definition (hcs : ∀ c ∈ cs, c.IsPlain)
    (ht : ∀ l ∈ Text.lines t, Line.IsBare l)
    (hz : Line.AtZero Line.IsTableHeader 0 (Text.lines t))
    (hbal : Line.depthOf (Text.lines t) = 0) {pre post : List Line} {l : Line}
    (hlines : Text.lines t = pre ++ l :: post) (hpre : ∀ k ∈ pre, Line.isDefinition k = false)
    (hdef : Line.isDefinition l = true) :
    extract (merge cs t) =
      grouped .header (linesOf cs .header ++ (Merging.start.after cs pre).above cs l) ++
        ((Merging.start.after cs pre).next cs l).records cs post ++
        grouped .footer (linesOf cs .footer) := by
  have hbare : ∀ k ∈ pre ++ l :: post, Line.IsBare k := hlines ▸ ht
  have hzpost : Line.AtZero Line.IsTableHeader
      ((Merging.start.after cs pre).next cs l).scan.depth post := by
    rw [hlines] at hz
    exact Merging.atZero_next cs (Merging.atZero_after cs hz)
  -- The depth at the end is that of the whole text.
  have hend : (((Merging.start.after cs pre).next cs l).after cs post).scan.depth = 0 := by
    rw [Merging.after_scan, Merging.next_scan, Merging.after_scan, TableScan.after_depth,
      TableScan.pass_depth, TableScan.after_depth]
    rw [hlines, Line.depthOf_append, Line.depthOf_cons] at hbal
    show 0 + _ + _ + _ = (0 : Int)
    omega
  obtain ⟨hrun, hidle⟩ := Extraction.linewise_dressings_of_undefined (m := .start) cs
    (fun k hk => hbare k (List.mem_append_left _ hk)) hpre rfl (linesOf cs .header)
    (((Merging.start.after cs pre).above cs l ++ (Merging.start.after cs pre).kept cs l ::
      ((((Merging.start.after cs pre).next cs l).dressings cs post).flatMap Dressing.lines ++
        bottom cs)))
  have hpost := Extraction.linewise_dressings hcs
    (fun k hk => hbare k (List.mem_append_right _ (List.mem_cons_of_mem l hk))) hzpost (bottom cs)
  rw [extract_eq_linewise fun k hk => opensComment_of_mem_lines_merge hcs ht hk, lines_merge hcs,
    hlines, List.append_assoc, Extraction.linewise_top hcs, Merging.dressings_append,
    List.flatMap_append,
    Merging.dressings, List.flatMap_cons, Dressing.lines]
  simp only [List.append_assoc, List.singleton_append]
  exact hrun.trans (by
    rw [Extraction.linewise_dressing_of_definition hcs hdef hidle, hpost,
      Extraction.linewise_bottom hcs hend]
    rfl)

/-- The comments of a merged text without definitions are all the schema's header. -/
theorem extract_merge_of_undefined (hcs : ∀ c ∈ cs, c.IsPlain)
    (ht : ∀ l ∈ Text.lines t, Line.IsBare l) (hbal : Line.depthOf (Text.lines t) = 0)
    (hdef : ∀ l ∈ Text.lines t, Line.isDefinition l = false) :
    extract (merge cs t) = grouped .header (linesOf cs .header ++ linesOf cs .footer) := by
  have hend : (Merging.start.after cs (Text.lines t)).scan.depth = 0 := by
    rw [Merging.after_scan, TableScan.after_depth, hbal]
    rfl
  obtain ⟨hrun, -⟩ := Extraction.linewise_dressings_of_undefined (m := .start) cs ht hdef rfl
    (linesOf cs .header) (bottom cs)
  rw [extract_eq_linewise fun k hk => opensComment_of_mem_lines_merge hcs ht hk, lines_merge hcs,
    List.append_assoc, Extraction.linewise_top hcs]
  exact hrun.trans (Extraction.linewise_bottom hcs hend _ _)

end Comment

end DbmlRestore
