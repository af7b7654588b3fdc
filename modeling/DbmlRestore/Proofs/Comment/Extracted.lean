import DbmlRestore.Proofs.Comment.Units

/-!
# The form of extracted comments

What is extracted from a text has the form of a comment already: a comment at the end of a line
starts with its mark and is one line, and a comment inside of a body is one line unless it is a
block comment. So comments that are extracted from a text are plain as soon as their lines are
remarks (`Comment.isPlain_of_mem_extract`), as the first line of a block comment is none. Each is
anchored at what its kind asks for (`Comment.anchorRule_of_mem_extract`).
-/

namespace DbmlRestore

/-- The text is cut where the mark stands, and nothing is lost. -/
theorem Text.of_cutBefore? {sub t code rest : Text} (h : cutBefore? sub t = some (code, rest)) :
    t = code ++ rest ∧ sub <+: rest := by
  induction t generalizing code with
  | nil =>
    rw [cutBefore?] at h
    split at h
    · next hsub =>
      cases h
      exact ⟨rfl, List.isEmpty_iff.1 hsub ▸ List.prefix_refl []⟩
    · cases h
  | cons c t ih =>
    rw [cutBefore?] at h
    split at h
    · next hsub =>
      cases h
      exact ⟨rfl, List.isPrefixOf_iff_prefix.1 hsub⟩
    · obtain ⟨⟨code', rest'⟩, hcut, heq⟩ := Option.map_eq_some_iff.1 h
      cases heq
      obtain ⟨rfl, hsub⟩ := ih hcut
      exact ⟨rfl, hsub⟩

/-- A comment at the end of a line ends it, but for a line feed, starts with its mark, and is one
    line. -/
theorem Line.suffix_of_inlineComment? {l : Line} {code comment : Text}
    (h : inlineComment? l = some (code, comment)) :
    comment <:+ (if l.getLast? = some '\n' then l.dropLast else l) ∧ commentMark <+: comment ∧
      '\n' ∉ comment := by
  rw [inlineComment?] at h
  dsimp only at h
  split at h
  · cases h
  · next c t hcons =>
    rw [hcons]
    split at h
    · cases h
    · next hnl =>
      obtain ⟨⟨code', comment'⟩, hcut, heq⟩ := Option.map_eq_some_iff.1 h
      cases heq
      obtain ⟨rfl, hmark⟩ := Text.of_cutBefore? hcut
      have hsuffix : comment' <:+ c :: (code' ++ comment') :=
        (List.suffix_append code' comment').trans (List.suffix_cons _ _)
      refine ⟨hsuffix, hmark, fun hmem => hnl ?_⟩
      rw [List.contains_iff_mem]
      exact hsuffix.subset hmem

/-- The comment at the end of a line is a part of the line, and begins with the mark. -/
theorem Line.of_inlineComment? {l : Line} {code comment : Text}
    (h : inlineComment? l = some (code, comment)) :
    comment <:+: l ∧ commentMark <+: comment ∧ '\n' ∉ comment := by
  obtain ⟨hsuffix, hcomment⟩ := suffix_of_inlineComment? h
  refine ⟨hsuffix.isInfix.trans ?_, hcomment⟩
  split
  · exact (List.dropLast_prefix l).isInfix
  · exact List.infix_rfl

/-! ## Records -/

namespace Extraction

/-- What a unit adds is what waited, for a header that follows it; or the whole unit, in the body of
    a table; or what stands at the end of its line. -/
theorem cases_of_mem_step {e : Extraction} {u : CommentUnit} {c : Comment}
    (hc : c ∈ (e.step u).1) :
    (e.pending ≠ [] ∧ ∃ table, c = .header (Text.unlines e.pending) ∨
      c = .onTable (Text.unlines e.pending) (some table)) ∨
    (∃ table, c = .inBody u.text (some table)) ∨
    (∃ code comment table field, Line.inlineComment? u.first = some (code, comment) ∧
      c = .inline comment (some table) (some field)) := by
  -- What waits is recorded as one comment, if anything waits.
  have hflush : ∀ {record : Text → Comment}, c ∈ e.flush record →
      e.pending ≠ [] ∧ c = record (Text.unlines e.pending) := by
    intro record hc
    rw [flush] at hc
    split at hc
    · exact absurd hc List.not_mem_nil
    · next hne => exact ⟨fun h => hne (List.isEmpty_iff.2 h), List.mem_singleton.1 hc⟩
  -- The header of a table, that of an enum, a comment, and any other line.
  rcases u.cases_first with ⟨header, ht⟩ | ⟨ht, he⟩ | hcomment | ⟨hdef, hcomment⟩
  · rw [step_of_header e ht, enterTable] at hc
    dsimp only at hc
    obtain ⟨hne, rfl⟩ := hflush hc
    refine .inl ⟨hne, header.table, ?_⟩
    split
    · exact .inr rfl
    · exact .inl rfl
  · rw [step_of_enum e ht he, enterEnum] at hc
    split at hc
    · obtain ⟨hne, rfl⟩ := hflush hc
      exact .inl ⟨hne, [], .inl rfl⟩
    · exact absurd hc List.not_mem_nil
  · rw [step_of_comment e hcomment, addComment] at hc
    split at hc
    · next table _ => exact .inr (.inl ⟨table, List.mem_singleton.1 hc⟩)
    · exact absurd hc List.not_mem_nil
  · rw [step_of_other e hdef hcomment, inlineOf] at hc
    dsimp only at hc
    split at hc
    · next table code comment _ hcut =>
      split at hc
      · next field _ =>
        exact .inr (.inr ⟨code, comment, table, field, hcut, List.mem_singleton.1 hc⟩)
      · exact absurd hc List.not_mem_nil
    · exact absurd hc List.not_mem_nil

/-- What is recorded is a comment of several lines at most if it waited, as those of tables have;
    else it is a whole unit, or ends a line. Its anchor goes with its kind. -/
theorem of_mem_step {e : Extraction} {u : CommentUnit} {c : Comment} (hc : c ∈ (e.step u).1) :
    (c.kind = .table → e.pending ≠ [] ∧ c.text = Text.unlines e.pending) ∧
      (c.kind = .field → c.text = u.text) ∧
      (c.kind = .inline → Line.commentMark <+: c.text ∧ '\n' ∉ c.text) ∧
      Comment.AnchorRule c.kind c.anchor := by
  rcases cases_of_mem_step hc with
    ⟨hne, table, rfl | rfl⟩ | ⟨table, rfl⟩ | ⟨code, comment, table, field, hcut, rfl⟩
  · exact ⟨by rintro ⟨⟩, by rintro ⟨⟩, by rintro ⟨⟩, rfl⟩
  · exact ⟨fun _ => ⟨hne, rfl⟩, by rintro ⟨⟩, by rintro ⟨⟩, rfl, rfl⟩
  · exact ⟨by rintro ⟨⟩, fun _ => rfl, by rintro ⟨⟩, rfl, rfl⟩
  · exact ⟨by rintro ⟨⟩, by rintro ⟨⟩, fun _ => (Line.of_inlineComment? hcut).2, rfl, rfl⟩

/-- What still waits at the end is a comment of the footer or the header. -/
theorem of_mem_finish {e : Extraction} {c : Comment} (hc : c ∈ e.finish) :
    c = .footer (Text.unlines e.pending) ∨ c = .header (Text.unlines e.pending) := by
  rw [finish, flush] at hc
  split at hc
  · exact absurd hc List.not_mem_nil
  · rw [List.mem_singleton.1 hc]
    split
    · exact .inl rfl
    · exact .inr rfl

/-- A unit that waits is added to those that do. -/
theorem mem_pending_step {e : Extraction} {u : CommentUnit} {t : Text}
    (ht : t ∈ (e.step u).2.pending) : t ∈ e.pending ∨ t = u.text := by
  rcases u.cases_first with ⟨header, hh⟩ | ⟨hh, he⟩ | hcomment | ⟨hdef, hcomment⟩
  · rw [step_of_header e hh] at ht
    exact absurd ht List.not_mem_nil
  · rw [step_of_enum e hh he, enterEnum] at ht
    split at ht
    · exact absurd ht List.not_mem_nil
    · exact .inl ht
  · rw [step_of_comment e hcomment, addComment] at ht
    split at ht
    · exact .inl ht
    · exact (List.mem_append.1 ht).imp_right List.mem_singleton.1
  · rw [step_of_other e hdef hcomment] at ht
    exact .inl ht

/-- A recorded comment whose lines are remarks is plain: in a body or inline, it has no line feed.
    -/
theorem isPlain_of_mem_run {e : Extraction} {us : List CommentUnit} (hus : ∀ u ∈ us, u.IsFormed)
    {c : Comment} (hc : c ∈ e.run us) (hr : ∀ l ∈ Text.lines c.text, Line.IsRemark l) :
    c.IsPlain := by
  induction us generalizing e with
  | nil =>
    rcases of_mem_finish hc with rfl | rfl
    · exact ⟨hr, by rintro ⟨⟩, by rintro ⟨⟩⟩
    · exact ⟨hr, by rintro ⟨⟩, by rintro ⟨⟩⟩
  | cons u us ih =>
    rcases List.mem_append.1 hc with hc | hc
    · obtain ⟨-, hfield, hinline, -⟩ := of_mem_step hc
      refine ⟨hr, fun hk => ?_, hinline⟩
      have hu := hus u List.mem_cons_self
      rw [hfield hk] at hr ⊢
      exact hu.newline_not_mem_text hr
    · exact ih (fun v hv => hus v (List.mem_cons_of_mem u hv)) hc

/-- The anchor of a recorded comment goes with its kind, as each kind is recorded in one place only.
    -/
theorem anchorRule_of_mem_run {e : Extraction} {us : List CommentUnit} {c : Comment}
    (hc : c ∈ e.run us) : Comment.AnchorRule c.kind c.anchor := by
  induction us generalizing e with
  | nil =>
    rcases of_mem_finish hc with rfl | rfl
    · rfl
    · rfl
  | cons u us ih =>
    rcases List.mem_append.1 hc with hc | hc
    · exact (of_mem_step hc).2.2.2
    · exact ih hc

end Extraction

/-- The anchors of the comments of a text go with their kinds. -/
theorem Comment.anchorRule_of_mem_extract {source : Text} {c : Comment} (hc : c ∈ extract source) :
    AnchorRule c.kind c.anchor := Extraction.anchorRule_of_mem_run hc

/-- Comments of a text whose lines are remarks are plain. -/
theorem Comment.isPlain_of_mem_extract {source : Text} {c : Comment} (hc : c ∈ extract source)
    (hr : ∀ l ∈ Text.lines c.text, Line.IsRemark l) : c.IsPlain :=
  Extraction.isPlain_of_mem_run (fun _ => CommentUnit.isFormed_of_mem_ofLines) hc hr

end DbmlRestore
