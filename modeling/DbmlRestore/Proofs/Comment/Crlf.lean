import DbmlRestore.Proofs.Comment.Extracted
import DbmlRestore.Proofs.Text.Crlf

/-!
# Comments of texts with carriage returns

The comments of a text with CRLF line ends are put back with the carriage returns that they were
found with (`Comment.IsReturned`): those of tables with all of them, those inside of bodies with all
but the last one, which is missing where the text ends with the comment.

Merging goes over the lines of another text. A line that ends in a carriage return still does when a
comment is put at its end (`Merging.isReturned_kept_iff`). Of what is put above the lines, only the
comments for bodies may lack a carriage return, and they are put there once for each header of the
tables in whose bodies lines stand (`Merging.forall_above_dressings_iff`). The comments of the header
and the footer bring an empty line with them. `Comment.isCrlf_merge_iff` puts this together.
-/

namespace DbmlRestore

/-! ## Comments of a text -/

/-- What the carriage returns of a text say about a comment in it: lines of the text stand after a
    comment of a table, so that all its lines end in one; the last line of a comment inside of a body
    may be the last line of the text. A comment at the end of a line is of one line anyway. -/
structure Comment.IsReturned (c : Comment) : Prop where
  table : c.kind = .table → ∀ l ∈ Text.lines c.text, l.IsReturned
  field : c.kind = .field → ∀ l ∈ (Text.lines c.text).dropLast, l.IsReturned
  inline : c.kind = .inline → '\n' ∉ c.text

namespace Extraction

variable {e : Extraction} {u : CommentUnit} {us : List CommentUnit} {c : Comment}

/-- A comment recorded by a step is returned, if what waits is and the lines of the unit are. -/
theorem isReturned_of_mem_step (he : ∀ t ∈ e.pending, ∀ l ∈ Text.lines t, Line.IsReturned l)
    (hu : u.IsFormed) (hlines : ∀ l ∈ u.lines.dropLast, Line.IsReturned l)
    (hc : c ∈ (e.step u).1) : c.IsReturned := by
  obtain ⟨htable, hfield, hinline, -⟩ := of_mem_step hc
  refine ⟨fun hk l hl => ?_, fun hk l hl => ?_, fun hk => (hinline hk).2⟩
  · obtain ⟨hne, htext⟩ := htable hk
    rw [htext, Text.lines_unlines hne] at hl
    obtain ⟨t, ht, hl⟩ := List.mem_flatMap.1 hl
    exact he t ht l hl
  · rw [hfield hk, hu.lines_text] at hl
    exact hlines l hl

theorem isReturned_of_mem_finish (hc : c ∈ e.finish) : c.IsReturned := by
  rcases of_mem_finish hc with rfl | rfl
  · exact ⟨by rintro ⟨⟩, by rintro ⟨⟩, by rintro ⟨⟩⟩
  · exact ⟨by rintro ⟨⟩, by rintro ⟨⟩, by rintro ⟨⟩⟩

/-- The induction is on the units. Only the last line of the last one is without a carriage return,
    so that what waits has them all as long as a unit follows. -/
theorem isReturned_of_mem_run (hus : ∀ u ∈ us, u.IsFormed)
    (hlines : ∀ l ∈ (us.flatMap (·.lines)).dropLast, Line.IsReturned l)
    (he : ∀ t ∈ e.pending, ∀ l ∈ Text.lines t, Line.IsReturned l) (hc : c ∈ e.run us) :
    c.IsReturned := by
  induction us generalizing e with
  | nil => exact isReturned_of_mem_finish hc
  | cons u us ih =>
    have hu := hus u List.mem_cons_self
    rw [List.flatMap_cons] at hlines
    rcases List.mem_append.1 hc with hc | hc
    · -- Recorded at this unit: its last line ends in a return, or is the last one of the text.
      refine isReturned_of_mem_step he hu (fun l hl => hlines l ?_) hc
      cases us with
      | nil => rwa [List.flatMap_nil, List.append_nil]
      | cons v vs =>
        have hne : (v :: vs).flatMap (·.lines) ≠ [] := List.cons_ne_nil _ _
        rw [List.dropLast_append_of_ne_nil hne]
        exact List.mem_append_left _ (List.dropLast_subset _ hl)
    · -- Recorded later: this unit may wait, and has another one behind it.
      cases us with
      | nil => exact isReturned_of_mem_finish hc
      | cons v vs =>
        have hne : (v :: vs).flatMap (·.lines) ≠ [] := List.cons_ne_nil _ _
        rw [List.dropLast_append_of_ne_nil hne] at hlines
        refine ih (fun w hw => hus w (List.mem_cons_of_mem u hw))
          (fun l hl => hlines l (List.mem_append_right _ hl)) (fun t ht l hl => ?_) hc
        rcases mem_pending_step ht with ht | rfl
        · exact he t ht l hl
        · rw [hu.lines_text] at hl
          exact hlines l (List.mem_append_left _ hl)

end Extraction

/-- The comments of a text with CRLF line ends are returned. -/
theorem Comment.isReturned_of_mem_extract {t : Text} (ht : t.IsCrlf) {c : Comment}
    (hc : c ∈ extract t) : c.IsReturned := by
  refine Extraction.isReturned_of_mem_run (fun _ => CommentUnit.isFormed_of_mem_ofLines) ?_
    (by rintro _ ⟨⟩) hc
  exact (CommentUnit.flatMap_lines_ofLines _).symm ▸ Text.isCrlf_iff_forall_lines.1 ht

/-! ## Bodies of tables -/

/-- The tables in whose bodies the lines stand that follow. -/
def TableScan.bodies (s : TableScan) : List Line → List Text
  | [] => []
  | l :: ls => (s.see l).bodyTable?.toList ++ (s.pass l).bodies ls

/-- The comments for the body of a table end in carriage returns. -/
def Comment.BodyReturned (cs : List Comment) (table : Text) : Prop :=
  ∀ text ∈ textsOn cs .field table, text.getLast? = some '\r'

instance (cs : List Comment) : DecidablePred (Comment.BodyReturned cs) := fun table =>
  inferInstanceAs (Decidable (∀ text ∈ Comment.textsOn cs .field table, text.getLast? = some '\r'))

namespace Comment

variable {cs : List Comment} (hcs : ∀ c ∈ cs, c.IsReturned)
include hcs

theorem isReturned_of_textsOn_table {table : Text} {l : Line}
    (hl : l ∈ (textsOn cs .table table).flatMap Text.lines) : l.IsReturned := by
  obtain ⟨text, htext, hl⟩ := List.mem_flatMap.1 hl
  obtain ⟨c, hc, hk, -, rfl⟩ := exists_of_mem_textsOn htext
  exact (hcs c hc).table hk l hl

/-- The comments for the body of a table end in carriage returns if and only if all their lines do.
    -/
theorem bodyReturned_iff {table : Text} : BodyReturned cs table ↔
    ∀ l ∈ (textsOn cs .field table).flatMap Text.lines, Line.IsReturned l := by
  constructor
  · intro h l hl
    obtain ⟨text, htext, hl⟩ := List.mem_flatMap.1 hl
    have hend := h text htext
    obtain ⟨c, hc, hk, -, rfl⟩ := exists_of_mem_textsOn htext
    have hsplit := (List.dropLast_append_getLast (Text.lines_ne_nil c.text)).symm
    rw [hsplit] at hl
    rcases List.mem_append.1 hl with hl | hl
    · exact (hcs c hc).field hk l hl
    · rw [List.mem_singleton.1 hl]
      exact (Text.getLast?_eq_return_iff hsplit).1 hend
  · intro h text htext
    have hsplit := (List.dropLast_append_getLast (Text.lines_ne_nil text)).symm
    rw [Text.getLast?_eq_return_iff hsplit]
    exact h _ (List.mem_flatMap.2 ⟨text, htext, List.getLast_mem _⟩)

end Comment

namespace Merging

variable {m : Merging} {cs : List Comment} {l : Line} {ls : List Line}

/-- The comments for the body of the current table, if they have been put back, end in carriage
    returns. -/
def FilledReturned (m : Merging) (cs : List Comment) : Prop :=
  m.filled = true → ∀ table ∈ m.scan.table?, Comment.BodyReturned cs table

/-- At the header of a table, nothing is filled in yet. -/
theorem FilledReturned.beforeHeader (h : m.FilledReturned cs) (l : Line) :
    (m.beforeHeader cs l).2.FilledReturned cs := by
  rw [Merging.beforeHeader]
  split
  · intro hfilled
    cases hfilled
  · exact h

/-- What one line fills in stays as it was said of the lines before, if the comments for its table
    are. -/
theorem FilledReturned.next (h : m.FilledReturned cs)
    (hbody : ∀ table ∈ (m.scan.see l).bodyTable?, Comment.BodyReturned cs table) :
    (m.next cs l).FilledReturned cs := by
  intro hfilled table htable
  rw [next_scan] at htable
  have hsee : table ∈ (m.scan.see l).table? := by
    rcases TableScan.pass_table?_eq m.scan l with hnone | hsame
    · rw [hnone] at htable
      cases htable
    · rwa [hsame] at htable
  cases hb : (m.scan.see l).bodyTable? with
  | some t =>
    obtain rfl : table = t := Option.some.inj (hsee.symm.trans (TableScan.table?_of_bodyTable? hb))
    exact hbody table hb
  | none =>
    have hheader := h.beforeHeader l
    rw [FilledReturned, beforeHeader_scan] at hheader
    refine hheader ?_ table hsee
    change ((m.beforeHeader cs l).2.openingBody cs).2.filled = true at hfilled
    rwa [openingBody, beforeHeader_scan, hb] at hfilled

section

variable (hcs : ∀ c ∈ cs, c.IsReturned)
include hcs

/-- Of what is put above a line, only the comments for a body may lack a carriage return. -/
theorem forall_above_iff (hm : m.FilledReturned cs) : (∀ k ∈ m.above cs l, Line.IsReturned k) ↔
    ∀ table ∈ (m.scan.see l).bodyTable?, Comment.BodyReturned cs table := by
  -- The comments above a table are returned in any case.
  have hbefore : ∀ k ∈ (m.beforeHeader cs l).1.flatMap Text.lines, Line.IsReturned k := by
    intro k hk
    rw [beforeHeader] at hk
    split at hk
    · exact Comment.isReturned_of_textsOn_table hcs hk
    · exact absurd hk List.not_mem_nil
  -- The comments in a body are put in here, or were put in before.
  have hopening : (∀ k ∈ ((m.beforeHeader cs l).2.openingBody cs).1.flatMap Text.lines,
      Line.IsReturned k) ↔
      ∀ table ∈ (m.scan.see l).bodyTable?, Comment.BodyReturned cs table := by
    have hm' := hm.beforeHeader l
    rw [FilledReturned, beforeHeader_scan] at hm'
    rw [openingBody, beforeHeader_scan]
    cases hb : (m.scan.see l).bodyTable? with
    | none => exact iff_of_true (by rintro _ ⟨⟩) (by rintro _ ⟨⟩)
    | some t =>
      simp only [Option.mem_some_iff, forall_eq']
      split
      · next hfilled =>
        exact iff_of_true (by rintro _ ⟨⟩) (hm' hfilled t (TableScan.table?_of_bodyTable? hb))
      · exact (Comment.bodyReturned_iff hcs).symm
  rw [above, List.flatMap_append, ← hopening]
  simp only [List.mem_append, or_imp, forall_and]
  exact and_iff_right hbefore

/-- The induction is on the lines: the comments for a body that have been put back end in carriage
    returns, or the text has a line without one already. -/
theorem forall_above_dressings_iff (hm : m.FilledReturned cs) :
    (∀ d ∈ m.dressings cs ls, ∀ k ∈ d.above, Line.IsReturned k) ↔
      ∀ table ∈ m.scan.bodies ls, Comment.BodyReturned cs table := by
  induction ls generalizing m with
  | nil => exact iff_of_true (by rintro _ ⟨⟩) (by rintro _ ⟨⟩)
  | cons l ls ih =>
    rw [dressings, List.forall_mem_cons, TableScan.bodies, List.forall_mem_append,
      forall_above_iff hcs hm, ← next_scan m cs l]
    simp only [Option.mem_toList]
    exact and_congr_right fun hbody => ih (hm.next hbody)

end

/-- A line that ends in a carriage return still does with its comment. -/
theorem isReturned_withComment {comment : Text} (hl : l.IsReturned) :
    (Line.withComment l comment).IsReturned := by
  have hl' : l.getLast? = some '\r' := hl
  rw [Line.withComment, if_pos hl']
  split
  · next hc =>
    obtain ⟨init, hinit⟩ := List.getLast?_eq_some_iff.1 hc
    rw [hinit, List.append_nil, ← List.cons_append, ← List.append_assoc]
    exact List.getLast?_concat
  · exact List.getLast?_concat

/-- With a comment at its end, a line ends in a carriage return just as before. -/
theorem isReturned_kept_iff (hl : l = [] ∨ l.IsReturned) :
    (m.kept cs l).IsReturned ↔ l.IsReturned := by
  rcases kept_cases with heq | ⟨field, hf, c, hmem, hk, heq⟩
  · rw [heq]
  · rw [heq]
    rcases hl with rfl | hl
    · cases hf
    · exact iff_of_true (isReturned_withComment hl) hl

/-- Dressed lines all end in carriage returns if and only if the lines themselves do. -/
theorem forall_dressed_iff (hls : ∀ l ∈ ls, l = [] ∨ Line.IsReturned l) :
    (∀ d ∈ m.dressings cs ls, d.dressed.IsReturned) ↔ ∀ l ∈ ls, Line.IsReturned l := by
  induction ls generalizing m with
  | nil => exact iff_of_true (by rintro _ ⟨⟩) (by rintro _ ⟨⟩)
  | cons l ls ih =>
    obtain ⟨hl, hls⟩ := List.forall_mem_cons.1 hls
    rw [dressings, List.forall_mem_cons, List.forall_mem_cons, ih hls, isReturned_kept_iff hl]

end Merging

/-! ## The merged text -/

namespace Comment

variable {cs : List Comment} {t : Text} {ls : List Line}

/-- A text with an empty line before its last one has a line feed without a carriage return. -/
theorem not_isCrlf_of_nil_mem {t : Text} {ls ms : List Line} (ht : Text.lines t = ls ++ ms)
    (hls : [] ∈ ls) (hms : ms ≠ []) : ¬ t.IsCrlf := fun h => by
  rw [Text.isCrlf_iff_forall_lines, ht, List.dropLast_append_of_ne_nil hms] at h
  exact Line.not_isReturned_nil (h [] (List.mem_append_left _ hls))

/-- The lines between the header and the footer all end in carriage returns but for the last one if
    and only if the lines of the text do, and what is put above them. -/
theorem forall_lines_dressings_iff {ds : List Dressing} {above : List Line} {P : Line → Prop} :
    (∀ l ∈ ds.flatMap Dressing.lines ++ above, P l) ↔
      (∀ d ∈ ds, P d.dressed) ∧ ∀ d ∈ ds ++ [⟨above, [], []⟩], ∀ k ∈ d.above, P k := by
  constructor
  · intro h
    refine ⟨fun d hd => h _ ?_, fun d hd k hk => h k ?_⟩
    · exact List.mem_append_left _ (List.mem_flatMap.2 ⟨d, hd, List.mem_concat_self⟩)
    · rcases List.mem_append.1 hd with hd | hd
      · exact List.mem_append_left _ (List.mem_flatMap.2 ⟨d, hd, List.mem_append_left _ hk⟩)
      · rw [List.mem_singleton.1 hd] at hk
        exact List.mem_append_right _ hk
  · rintro ⟨hdressed, habove⟩ l hl
    rcases List.mem_append.1 hl with hl | hl
    · obtain ⟨d, hd, hl⟩ := List.mem_flatMap.1 hl
      rcases List.mem_append.1 hl with hl | hl
      · exact habove d (List.mem_append_left _ hd) l hl
      · rw [List.mem_singleton.1 hl]
        exact hdressed d hd
    · exact habove _ (List.mem_append_right _ (List.mem_singleton_self _)) l hl

/-- Comments are put into a text with carriage returns, which may have empty lines, without a line
    that has none, if and only if there is no such line yet, no comments of the header and the
    footer, which an empty line follows or precedes, and no comment for a body without one. -/
theorem isCrlf_merge_iff (hcs : ∀ c ∈ cs, c.IsReturned) (ht : Text.lines t = ls ++ [[]])
    (hls : ∀ l ∈ ls, l = [] ∨ Line.IsReturned l) :
    (merge cs t).IsCrlf ↔ t.IsCrlf ∧ textsOf cs .header = [] ∧ textsOf cs .footer = [] ∧
      ∀ table ∈ TableScan.start.bodies (Text.lines t), BodyReturned cs table := by
  let m := Merging.start.after cs ls
  have hdressings : Merging.start.dressings cs (Text.lines t) =
      Merging.start.dressings cs ls ++ [⟨m.above cs [], [], []⟩] := by
    have hkept : m.kept cs [] = [] := by
      rw [Merging.kept_eq]
      split
      · next hfield => cases hfield
      · rfl
    rw [ht, Merging.dressings_append, Merging.dressings, hkept]
    rfl
  have hlines : Text.lines (merge cs t) = top cs ++
      ((Merging.start.dressings cs ls).flatMap Dressing.lines ++ m.above cs [] ++ [[]]) ++
        bottom cs := by
    rw [lines_merge_of_newline_not_mem fun c hc => (hcs c hc).inline, hdressings,
      List.flatMap_append]
    simp [Dressing.lines]
  by_cases hheader : textsOf cs .header = []
  · by_cases hfooter : textsOf cs .footer = []
    · -- The empty line at the end is the only one that is put there.
      rw [top, if_pos hheader, bottom, if_pos hfooter, List.nil_append, List.append_nil] at hlines
      have hfilled : Merging.start.FilledReturned cs := by rintro ⟨⟩
      rw [Text.isCrlf_iff_forall_lines, hlines, List.dropLast_concat, forall_lines_dressings_iff,
        ← hdressings, Merging.forall_dressed_iff hls,
        Merging.forall_above_dressings_iff hcs hfilled,
        Text.isCrlf_iff_forall_lines, ht, List.dropLast_concat]
      exact and_congr_right fun _ => ⟨fun h => ⟨hheader, hfooter, h⟩, fun h => h.2.2⟩
    · rw [bottom, if_neg hfooter] at hlines
      exact iff_of_false (not_isCrlf_of_nil_mem hlines (by simp) (List.cons_ne_nil _ _))
        fun h => hfooter h.2.2.1
  · rw [top, if_neg hheader, List.append_assoc] at hlines
    exact iff_of_false (not_isCrlf_of_nil_mem hlines (by simp) (by simp)) fun h => hheader h.2.1

end Comment

end DbmlRestore
