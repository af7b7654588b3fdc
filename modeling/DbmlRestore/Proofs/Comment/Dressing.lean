import DbmlRestore.Comment.Extract
import DbmlRestore.Comment.Merge
import DbmlRestore.Proofs.TableScan
import DbmlRestore.TableOrder

/-!
# What merging makes of a text

Merging goes over the lines of a text and puts comments above some of them and at
the end of others. A `Dressing` is what becomes of one line: the lines above it and
the line itself, which is `Line.Dressed`. The lines of the merged text are those of
its dressings (`lines_merge`), between the comments of the header and the footer.

The comments are `//` comments without braces here (`Comment.IsPlain`). So what is
put above a line are remarks, and the dressings of a text have the braces and headers
of the text (`Merging.isProper_of_mem_dressings`).
-/

namespace DbmlRestore

namespace Comment

/-- A `//` comment without braces: each of its lines is a remark, and a comment that
    is put inside of a body or at the end of a line is one line. -/
structure IsPlain (c : Comment) : Prop where
  remarks : ∀ l ∈ Text.lines c.text, Line.IsRemark l
  inBody : c.kind = .field → '\n' ∉ c.text
  inline : c.kind = .inline → Line.commentMark <+: c.text ∧ '\n' ∉ c.text

instance (c : Comment) : Decidable c.IsPlain :=
  decidable_of_iff ((∀ l ∈ Text.lines c.text, Line.IsRemark l) ∧ (c.kind = .field → '\n' ∉ c.text) ∧
      (c.kind = .inline → Line.commentMark <+: c.text ∧ '\n' ∉ c.text))
    ⟨fun ⟨hr, hb, hi⟩ => ⟨hr, hb, hi⟩, fun ⟨hr, hb, hi⟩ => ⟨hr, hb, hi⟩⟩

/-- A comment at the end of a line is without braces. -/
theorem IsPlain.braces_eq_zero {c : Comment} (h : c.IsPlain) (hk : c.kind = .inline) :
    Line.opens c.text = 0 ∧ Line.closes c.text = 0 := by
  have hr := h.remarks c.text (by
    rw [Text.lines_eq_singleton (h.inline hk).2]
    exact List.mem_singleton_self _)
  exact ⟨hr.opens_eq, hr.closes_eq⟩

variable {cs : List Comment}

/-- The texts of a kind are those of the comments of this kind. -/
theorem exists_of_mem_textsOf {k : CommentKind} {t : Text} (h : t ∈ textsOf cs k) :
    ∃ c ∈ cs, c.kind = k ∧ c.text = t := by
  obtain ⟨c, hc, rfl⟩ := List.mem_map.1 h
  obtain ⟨hmem, hk⟩ := List.mem_filter.1 hc
  exact ⟨c, hmem, of_decide_eq_true hk, rfl⟩

/-- The texts of a kind on a table are those of the comments that are anchored there. -/
theorem exists_of_mem_textsOn {k : CommentKind} {table t : Text} (h : t ∈ textsOn cs k table) :
    ∃ c ∈ cs, c.kind = k ∧ c.anchor.table = some table ∧ c.text = t := by
  obtain ⟨c, hc, rfl⟩ := List.mem_map.1 h
  obtain ⟨hmem, hk⟩ := List.mem_filter.1 hc
  obtain ⟨hk, ht⟩ := of_decide_eq_true hk
  exact ⟨c, hmem, hk, ht, rfl⟩

/-- The text for a field is that of a comment whose key is the one of the field. -/
theorem exists_of_inlineText?_eq_some {table field t : Text}
    (h : inlineText? cs table field = some t) :
    ∃ c ∈ cs, c.kind = .inline ∧ c.anchor.inlineKey? = some (Anchor.key table field) ∧
      c.text = t := by
  obtain ⟨c, hc, rfl⟩ := Option.map_eq_some_iff.1 h
  obtain ⟨hmem, hk⟩ := List.mem_filter.1 (List.mem_of_getLast? hc)
  obtain ⟨hk, ha⟩ := of_decide_eq_true hk
  exact ⟨c, hmem, hk, ha, rfl⟩

end Comment

/-! ## Dressings -/

/-- What becomes of a line of a text. -/
structure Dressing where
  /-- The lines put above it. -/
  above : List Line
  /-- The line as it was. -/
  line : Line
  /-- The line as it is. -/
  dressed : Line

namespace Dressing

/-- The lines of a dressing. -/
def lines (d : Dressing) : List Line := d.above ++ [d.dressed]

/-- Remarks stand above the line, and the line is as it was but for a comment. -/
structure IsProper (d : Dressing) : Prop where
  above : ∀ l ∈ d.above, Line.IsRemark l
  dressed : Line.Dressed d.line d.dressed

end Dressing

namespace Merging

variable (m : Merging) (cs : List Comment) (l : Line)

/-- The state in which a line is looked at: at a header the table is entered, and in a
    body its comments have been put back. -/
def seen : Merging := ((m.beforeHeader cs l).2.openingBody cs).2

/-- The lines put above a line. -/
def above : List Line :=
  ((m.beforeHeader cs l).1 ++ ((m.beforeHeader cs l).2.openingBody cs).1).flatMap Text.lines

/-- The line, with its comment. -/
def kept : Line := (m.seen cs l).lineOf cs l

/-- The state after a line. -/
def next : Merging := { m.seen cs l with scan := (m.seen cs l).scan.finish l }

/-- The dressings of the lines that follow. -/
def dressings (m : Merging) (cs : List Comment) : List Line → List Dressing
  | [] => []
  | l :: ls => ⟨m.above cs l, l, m.kept cs l⟩ :: (m.next cs l).dressings cs ls

/-- The state after some lines. -/
def after (m : Merging) (cs : List Comment) (ls : List Line) : Merging :=
  ls.foldl (fun m l => m.next cs l) m

@[simp] theorem after_cons (ls : List Line) :
    m.after cs (l :: ls) = (m.next cs l).after cs ls := rfl

theorem dressings_append (ls ls' : List Line) :
    m.dressings cs (ls ++ ls') = m.dressings cs ls ++ (m.after cs ls).dressings cs ls' := by
  induction ls generalizing m with
  | nil => rfl
  | cons l ls ih => rw [List.cons_append, dressings, ih]; rfl

theorem run_cons (ls : List Line) :
    m.run cs (l :: ls) = (m.step cs l).1 ++ (m.next cs l).run cs ls := rfl

/-- Before a header, merging looks at the line as the scan does. -/
theorem beforeHeader_scan : (m.beforeHeader cs l).2.scan = m.scan.see l := by
  rw [beforeHeader, TableScan.see]
  cases Line.tableHeader? (Text.trim l) <;> rfl

/-- Only the header of a table makes the body one that is not filled. -/
theorem beforeHeader_filled : (m.beforeHeader cs l).2.filled =
    (m.filled && !(Line.tableHeader? (Text.trim l)).isSome) := by
  rw [beforeHeader]
  cases Line.tableHeader? (Text.trim l) <;> simp

/-- In a body the comments inside of the table are put back, unless they have been before. -/
theorem openingBody_fst : (m.openingBody cs).1 =
    if m.filled then [] else m.scan.bodyTable?.toList.flatMap (Comment.textsOn cs .field) := by
  rw [openingBody]
  cases m.scan.bodyTable? <;> cases m.filled <;> simp

/-- A body that was opened is filled. -/
theorem openingBody_snd :
    (m.openingBody cs).2 = ⟨m.scan, m.filled || m.scan.bodyTable?.isSome⟩ := by
  obtain ⟨scan, filled⟩ := m
  rw [openingBody]
  cases scan.bodyTable? <;> cases filled <;> simp

theorem seen_scan : (m.seen cs l).scan = m.scan.see l := by
  rw [seen, openingBody_snd, beforeHeader_scan]

/-- The state after a line hangs on nothing that is put back. The comments inside of a table are put
    back once for each header. -/
theorem next_eq : m.next cs l = ⟨m.scan.pass l,
    (m.filled && !(Line.tableHeader? (Text.trim l)).isSome) ||
      (m.scan.see l).bodyTable?.isSome⟩ := by
  rw [next, seen, openingBody_snd, beforeHeader_scan, beforeHeader_filled]
  rfl

/-- Merging passes a line as the scan does. -/
theorem next_scan : (m.next cs l).scan = m.scan.pass l := by
  rw [next_eq]

/-- Merging follows the scan of the lines, whatever comments there are. -/
theorem after_scan (ls : List Line) : (m.after cs ls).scan = m.scan.after ls := by
  induction ls generalizing m with
  | nil => rfl
  | cons l ls ih => rw [after_cons, ih, next_scan, TableScan.after_cons]

/-- The lines that are dressed are the lines of the text. -/
theorem map_line_dressings (ls : List Line) : (m.dressings cs ls).map (·.line) = ls := by
  induction ls generalizing m with
  | nil => rfl
  | cons l ls ih => rw [dressings, List.map_cons, ih]

variable {m cs l}

theorem line_mem_of_mem_dressings {ls : List Line} {d : Dressing} (hd : d ∈ m.dressings cs ls) :
    d.line ∈ ls := by
  rw [← map_line_dressings m cs ls]
  exact List.mem_map_of_mem hd

theorem atZero_next (cs : List Comment) {p : Line → Prop} {ls : List Line}
    (hz : Line.AtZero p m.scan.depth (l :: ls)) : Line.AtZero p (m.next cs l).scan.depth ls := by
  rw [next_scan, TableScan.pass_depth]
  exact hz.tail

theorem atZero_after (cs : List Comment) {p : Line → Prop} {pre ls : List Line}
    (hz : Line.AtZero p m.scan.depth (pre ++ ls)) :
    Line.AtZero p (m.after cs pre).scan.depth ls := by
  rw [after_scan, TableScan.after_depth]
  exact hz.append_right

/-! ### Above a line -/

/-- Above a header stand the comments of its table. -/
theorem above_of_header {h : TableHeader} (hl : Line.tableHeader? (Text.trim l) = some h)
    (hd : m.scan.depth = 0) :
    m.above cs l = (Comment.textsOn cs .table h.table).flatMap Text.lines := by
  have hb : (m.scan.enter h.table).bodyTable? = none := TableScan.bodyTable?_of_depth_eq_zero hd
  rw [above, beforeHeader, hl]
  show (_ ++ (openingBody ⟨m.scan.enter h.table, false⟩ cs).1).flatMap Text.lines = _
  rw [openingBody, hb, List.append_nil]

/-- Above the first line of a body stand the comments inside of the table. -/
theorem above_of_none (hl : Line.tableHeader? (Text.trim l) = none) :
    m.above cs l =
      match m.scan.bodyTable? with
      | some t => if m.filled then [] else (Comment.textsOn cs .field t).flatMap Text.lines
      | none => [] := by
  rw [above, beforeHeader, hl]
  show ([] ++ (m.openingBody cs).1).flatMap Text.lines = _
  rw [openingBody, List.nil_append]
  cases m.scan.bodyTable? with
  | none => rfl
  | some t =>
    show List.flatMap _ (if _ then _ else _ : List Text × Merging).1 = _
    split <;> rfl

/-- A line that is in no table, and no header, stands alone. -/
theorem above_of_idle (hl : Line.tableHeader? (Text.trim l) = none) (hs : m.scan.table? = none) :
    m.above cs l = [] := by
  have hb : m.scan.bodyTable? = none := by
    rw [TableScan.bodyTable?, hs, ite_self]
  rw [above_of_none hl, hb]

theorem next_filled (hl : Line.tableHeader? (Text.trim l) = none) :
    (m.next cs l).filled = (m.filled || m.scan.bodyTable?.isSome) := by
  rw [next_eq, TableScan.see_of_none hl, hl, Option.isSome_none, Bool.not_false, Bool.and_true]

/-- After the header of a table at depth zero, the body is still to be filled. -/
theorem next_filled_of_header {h : TableHeader} (hl : Line.tableHeader? (Text.trim l) = some h)
    (hz : m.scan.depth = 0) : (m.next cs l).filled = false := by
  have hb : (m.scan.enter h.table).bodyTable? = none := TableScan.bodyTable?_of_depth_eq_zero hz
  rw [next_eq, TableScan.see_of_header hl, hl, hb, Option.isSome_some, Bool.not_true,
    Bool.and_false]
  rfl

theorem kept_eq : m.kept cs l =
    match (m.scan.see l).table?, Line.fieldName? (Text.trim l) with
    | some table, some field =>
      if Text.holds Line.commentMark l then l
      else match Comment.inlineText? cs table field with
        | some comment => Line.withComment l comment
        | none => l
    | _, _ => l := by
  rewrite [kept, lineOf, seen_scan]
  rfl

/-- Outside of the tables, lines are kept as they are. -/
theorem kept_of_idle (hl : Line.tableHeader? (Text.trim l) = none) (hs : m.scan.table? = none) :
    m.kept cs l = l := by
  rw [kept_eq, TableScan.see_of_none hl, hs]

/-- What is put above a line are comments, -/
theorem exists_of_mem_above {t : Text}
    (ht : t ∈ (m.beforeHeader cs l).1 ++ ((m.beforeHeader cs l).2.openingBody cs).1) :
    ∃ c ∈ cs, c.text = t := by
  rcases List.mem_append.1 ht with ht | ht
  · rw [beforeHeader] at ht
    split at ht
    · obtain ⟨c, hc, -, -, h⟩ := Comment.exists_of_mem_textsOn ht
      exact ⟨c, hc, h⟩
    · exact absurd ht List.not_mem_nil
  · rw [openingBody] at ht
    split at ht
    · split at ht
      · exact absurd ht List.not_mem_nil
      · obtain ⟨c, hc, -, -, h⟩ := Comment.exists_of_mem_textsOn ht
        exact ⟨c, hc, h⟩
    · exact absurd ht List.not_mem_nil

/-- and a comment is put at the end of the line itself, if it is one of a field. -/
theorem kept_cases : m.kept cs l = l ∨
    ∃ field, Line.fieldName? (Text.trim l) = some field ∧
      ∃ c ∈ cs, c.kind = .inline ∧ m.kept cs l = Line.withComment l c.text := by
  rw [kept_eq]
  split
  · next field _ hf =>
    split
    · exact .inl rfl
    · split
      · next comment hc =>
        obtain ⟨c, hmem, hk, -, rfl⟩ := Comment.exists_of_inlineText?_eq_some hc
        exact .inr ⟨field, hf, c, hmem, hk, rfl⟩
      · exact .inl rfl
  · exact .inl rfl

/-- The lines put above a line are remarks. -/
theorem isRemark_of_mem_above (hcs : ∀ c ∈ cs, c.IsPlain) {r : Line} (hr : r ∈ m.above cs l) :
    Line.IsRemark r := by
  obtain ⟨t, ht, hr⟩ := List.mem_flatMap.1 hr
  obtain ⟨c, hc, rfl⟩ := exists_of_mem_above ht
  exact (hcs c hc).remarks r hr

/-- The line itself is dressed. -/
theorem kept_dressed (hcs : ∀ c ∈ cs, c.IsPlain) : Line.Dressed l (m.kept cs l) := by
  rcases kept_cases with heq | ⟨field, hf, c, hmem, hk, heq⟩
  · rw [heq]
    exact .plain l
  · rw [heq]
    have hp := hcs c hmem
    obtain ⟨ho, hcl⟩ := hp.braces_eq_zero hk
    exact Line.dressed_withComment hf (hp.inline hk).1 ho hcl

/-- A comment at the end of a line makes no line feed. -/
theorem newline_not_mem_withComment {l c : Line} (hl : '\n' ∉ l) (hc : '\n' ∉ c) :
    '\n' ∉ Line.withComment l c := by
  rw [Line.withComment]
  split
  · intro h
    rcases List.mem_append.1 h with h | h
    · rcases List.mem_append.1 h with h | h
      · exact hl ((List.dropLast_subset l) h)
      · exact hc (List.mem_of_ne_of_mem (by decide) h)
    · split at h
      · exact List.not_mem_nil h
      · exact absurd h (by decide)
  · intro h
    rcases List.mem_append.1 h with h | h
    · exact hl h
    · exact hc (List.mem_of_ne_of_mem (by decide) h)

/-- A line that is kept, with the comment at its end, is one line. -/
theorem newline_not_mem_kept (hcs : ∀ c ∈ cs, c.kind = .inline → '\n' ∉ c.text)
    (hl : '\n' ∉ l) : '\n' ∉ m.kept cs l := by
  rcases kept_cases with heq | ⟨field, hf, c, hmem, hk, heq⟩
  · rw [heq]
    exact hl
  · rw [heq]
    exact newline_not_mem_withComment hl (hcs c hmem hk)

variable {ls : List Line}

/-- Every line of a text is dressed properly. -/
theorem isProper_of_mem_dressings (hcs : ∀ c ∈ cs, c.IsPlain) {d : Dressing}
    (hd : d ∈ m.dressings cs ls) : d.IsProper := by
  induction ls generalizing m with
  | nil => exact absurd hd List.not_mem_nil
  | cons l ls ih =>
    rcases List.mem_cons.1 hd with rfl | hd
    · exact ⟨fun r hr => isRemark_of_mem_above hcs hr, kept_dressed hcs⟩
    · exact ih hd

/-- Without comments, every line stands alone. -/
theorem flatMap_lines_dressings_nil : (m.dressings [] ls).flatMap Dressing.lines = ls := by
  induction ls generalizing m with
  | nil => rfl
  | cons l ls ih =>
    have habove : m.above [] l = [] := by
      refine List.eq_nil_iff_forall_not_mem.2 fun r hr => ?_
      obtain ⟨t, ht, -⟩ := List.mem_flatMap.1 hr
      rcases List.mem_append.1 ht with ht | ht
      · rw [beforeHeader] at ht
        split at ht <;> exact List.not_mem_nil ht
      · rw [openingBody] at ht
        split at ht
        · split at ht <;> exact List.not_mem_nil ht
        · exact List.not_mem_nil ht
    have hkept : m.kept [] l = l := by
      rw [kept_eq]
      split
      · split <;> rfl
      · rfl
    rw [dressings, List.flatMap_cons, ih, Dressing.lines, habove, hkept]
    rfl

/-- The pieces that merging makes have the lines of the dressings. -/
theorem flatMap_lines_run (hcs : ∀ c ∈ cs, c.kind = .inline → '\n' ∉ c.text)
    (hls : ∀ l ∈ ls, '\n' ∉ l) :
    (m.run cs ls).flatMap Text.lines = (m.dressings cs ls).flatMap Dressing.lines := by
  induction ls generalizing m with
  | nil => rfl
  | cons l ls ih =>
    have hkept : '\n' ∉ m.kept cs l := newline_not_mem_kept hcs (hls l List.mem_cons_self)
    rw [run_cons, List.flatMap_append, ih fun k hk => hls k (List.mem_cons_of_mem l hk),
      dressings, List.flatMap_cons]
    congr 1
    show ((_ ++ _) ++ [m.kept cs l]).flatMap Text.lines = m.above cs l ++ [m.kept cs l]
    rw [List.flatMap_append, List.flatMap_singleton, Text.lines_eq_singleton hkept]
    rfl

end Merging

/-! ## The merged text -/

namespace Comment

variable {cs : List Comment} {t : Text}

/-- The lines of the comments of a kind. -/
def linesOf (cs : List Comment) (k : CommentKind) : List Line := (textsOf cs k).flatMap Text.lines

theorem isRemark_of_mem_linesOf (hcs : ∀ c ∈ cs, c.IsPlain) {k : CommentKind} {r : Line}
    (hr : r ∈ linesOf cs k) : Line.IsRemark r := by
  obtain ⟨t, ht, hr⟩ := List.mem_flatMap.1 hr
  obtain ⟨c, hc, -, rfl⟩ := exists_of_mem_textsOf ht
  exact (hcs c hc).remarks r hr

/-- The comments of the header, and an empty line if there are any. -/
def top (cs : List Comment) : List Line :=
  if textsOf cs .header = [] then [] else linesOf cs .header ++ [[]]

/-- The comments of the footer, after an empty line if there are any. -/
def bottom (cs : List Comment) : List Line :=
  if textsOf cs .footer = [] then [] else [] :: linesOf cs .footer

/-- The lines of a merged text are its dressings between the header and the footer, if the comments
    at the end of lines are of one line. -/
theorem lines_merge_of_newline_not_mem (hcs : ∀ c ∈ cs, c.kind = .inline → '\n' ∉ c.text) :
    Text.lines (merge cs t) =
      top cs ++ (Merging.start.dressings cs (Text.lines t)).flatMap Dressing.lines ++
        bottom cs := by
  cases cs with
  | nil => rw [Merging.flatMap_lines_dressings_nil]; exact (List.append_nil _).symm
  | cons c cs' =>
    -- Without comments the text is left alone; else there is a piece for each of its lines.
    have hne : mergePieces (c :: cs') t ≠ [] := by
      obtain ⟨l, ls, hl⟩ := List.exists_cons_of_ne_nil (Text.lines_ne_nil t)
      rw [mergePieces, hl, Merging.run_cons]
      simp [Merging.step]
    rw [merge, List.isEmpty_cons, if_neg Bool.false_ne_true, Text.lines_unlines hne, mergePieces,
      List.flatMap_append, List.flatMap_append,
      Merging.flatMap_lines_run hcs fun l hl => Text.newline_not_mem hl]
    congr 2
    · rw [top, linesOf]
      cases textsOf (c :: cs') .header with
      | nil => rfl
      | cons h hs =>
        rw [if_neg (List.cons_ne_nil h hs), List.isEmpty_cons, if_neg Bool.false_ne_true,
          List.flatMap_append]
        rfl
    · rw [bottom, linesOf]
      cases textsOf (c :: cs') .footer with
      | nil => rfl
      | cons h hs => rfl

/-- The lines of a merged text are the top, the dressed lines and the bottom. -/
theorem lines_merge (hcs : ∀ c ∈ cs, c.IsPlain) :
    Text.lines (merge cs t) =
      top cs ++ (Merging.start.dressings cs (Text.lines t)).flatMap Dressing.lines ++
        bottom cs :=
  lines_merge_of_newline_not_mem fun c hc hk => ((hcs c hc).inline hk).2

/-- Neither the comments of the header and the footer nor the lines put above a line are
    headers of tables. -/
theorem filterMap_remarks {α : Type} {f : Line → Option α} {rs : List Line}
    (hrs : ∀ r ∈ rs, r = [] ∨ Line.IsRemark r)
    (hf : ∀ r, Line.tableHeader? (Text.trim r) = none → f r = none) : rs.filterMap f = [] := by
  refine List.filterMap_eq_nil_iff.2 fun r hr => hf r ?_
  rcases hrs r hr with rfl | h
  · rfl
  · exact h.tableHeader?_eq_none

/-- The lines at the top are remarks, and an empty one after them. -/
theorem mem_top (hcs : ∀ c ∈ cs, c.IsPlain) {r : Line} (hr : r ∈ top cs) :
    r = [] ∨ Line.IsRemark r := by
  rw [top] at hr
  split at hr
  · exact absurd hr List.not_mem_nil
  · rcases List.mem_append.1 hr with hr | hr
    · exact .inr (isRemark_of_mem_linesOf hcs hr)
    · exact .inl (List.mem_singleton.1 hr)

/-- The lines at the bottom are remarks, and an empty one before them. -/
theorem mem_bottom (hcs : ∀ c ∈ cs, c.IsPlain) {r : Line} (hr : r ∈ bottom cs) :
    r = [] ∨ Line.IsRemark r := by
  rw [bottom] at hr
  split at hr
  · exact absurd hr List.not_mem_nil
  · rcases List.mem_cons.1 hr with hr | hr
    · exact .inl hr
    · exact .inr (isRemark_of_mem_linesOf hcs hr)

/-- Merging comments keeps the table headers of a text. -/
theorem extract_merge_order (hcs : ∀ c ∈ cs, c.IsPlain) :
    TableEntry.extract (merge cs t) = TableEntry.extract t := by
  let f := fun l : Line => (Line.tableHeader? (Text.trim l)).map TableEntry.ofHeader
  have hf : ∀ r, Line.tableHeader? (Text.trim r) = none → f r = none := fun r hr => by
    show Option.map _ (Line.tableHeader? (Text.trim r)) = none
    rw [hr]
    rfl
  -- Only the lines that are dressed can be headers, as there are remarks above them.
  have hdress : ∀ (ds : List Dressing), (∀ d ∈ ds, d.IsProper) →
      (ds.flatMap Dressing.lines).filterMap f = (ds.map (·.line)).filterMap f := by
    intro ds hds
    induction ds with
    | nil => rfl
    | cons d ds ih =>
      have hd := hds d List.mem_cons_self
      have hline : f d.dressed = f d.line := by
        show Option.map _ (Line.tableHeader? (Text.trim d.dressed)) = Option.map _ _
        rw [hd.dressed.continues.tableHeader?_eq]
      rw [List.flatMap_cons, List.filterMap_append, Dressing.lines, List.filterMap_append,
        filterMap_remarks (fun r hr => .inr (hd.above r hr)) hf,
        ih fun e he => hds e (List.mem_cons_of_mem d he), List.map_cons, List.filterMap_cons,
        List.filterMap_cons, hline]
      cases f d.line <;> rfl
  show (Text.lines (merge cs t)).filterMap f = (Text.lines t).filterMap f
  rw [lines_merge hcs, List.filterMap_append, List.filterMap_append,
    filterMap_remarks (fun r hr => mem_top hcs hr) hf,
    filterMap_remarks (fun r hr => mem_bottom hcs hr) hf,
    hdress _ fun d hd => Merging.isProper_of_mem_dressings hcs hd, Merging.map_line_dressings,
    List.append_nil, List.nil_append]

end Comment

end DbmlRestore
