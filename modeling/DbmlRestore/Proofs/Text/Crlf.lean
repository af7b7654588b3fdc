import DbmlRestore.Proofs.Text.Lines

/-!
# Texts with carriage returns

In a text with CRLF line ends, a carriage return stands before every line feed (`Text.IsCrlf`). Line
by line, this says that every line but the last ends in a carriage return
(`Text.isCrlf_iff_forall_lines`), and is decided that way.
-/

namespace DbmlRestore

/-- The line ends in a carriage return. -/
def Line.IsReturned (l : Line) : Prop := l.getLast? = some '\r'

instance : DecidablePred Line.IsReturned := fun l =>
  inferInstanceAs (Decidable (l.getLast? = some '\r'))

namespace Line

theorem not_isReturned_nil : ¬ IsReturned [] := by decide

end Line

namespace Text

/-- A carriage return stands before every line feed. -/
def IsCrlf (t : Text) : Prop := ∀ pre post, t = pre ++ '\n' :: post → pre.getLast? = some '\r'

/-- A text ends in a carriage return if and only if its last line does. -/
theorem getLast?_eq_return_iff {t : Text} {init : List Line} {last : Line}
    (h : lines t = init ++ [last]) : t.getLast? = some '\r' ↔ last.IsReturned := by
  have hnl : ∀ l ∈ init ++ [last], '\n' ∉ l := fun l hl => newline_not_mem (h ▸ hl)
  have hlast : lines last = [last] := lines_eq_singleton (hnl last (by simp))
  cases init with
  | nil =>
    rw [List.nil_append, ← hlast, lines_inj] at h
    rw [h]
    rfl
  | cons l init =>
    have ht : t = unlines (l :: init) ++ '\n' :: last := by
      rw [← lines_inj, lines_append_newline, h, hlast,
        lines_unlines_of_forall (List.cons_ne_nil l init)
          fun k hk => hnl k (List.mem_append_left _ hk)]
    rw [ht, List.getLast?_append_of_ne_nil _ (List.cons_ne_nil _ _)]
    cases last with
    | nil => exact iff_of_false (by decide) Line.not_isReturned_nil
    | cons c last => rw [List.getLast?_cons_cons]; rfl

/-- All line ends are CRLF if and only if all lines but the last end in carriage returns. -/
theorem isCrlf_iff_forall_lines {t : Text} :
    IsCrlf t ↔ ∀ l ∈ (lines t).dropLast, l.IsReturned := by
  constructor
  · intro h l hl
    -- The text up to the end of the line is followed by a line feed.
    obtain ⟨pre, post, hsplit⟩ := List.append_of_mem hl
    obtain ⟨last, hlines⟩ : ∃ last, lines t = (pre ++ [l]) ++ (post ++ [last]) := by
      refine ⟨(lines t).getLast (lines_ne_nil t), ?_⟩
      rw [← List.append_assoc, List.append_assoc pre, List.singleton_append, ← hsplit,
        List.dropLast_append_getLast]
    have hnl : ∀ k ∈ (pre ++ [l]) ++ (post ++ [last]), '\n' ∉ k := fun k hk =>
      newline_not_mem (hlines ▸ hk)
    have hpre : lines (unlines (pre ++ [l])) = pre ++ [l] :=
      lines_unlines_of_forall (by simp) fun k hk => hnl k (List.mem_append_left _ hk)
    have hpost : lines (unlines (post ++ [last])) = post ++ [last] :=
      lines_unlines_of_forall (by simp) fun k hk => hnl k (List.mem_append_right _ hk)
    have ht : t = unlines (pre ++ [l]) ++ '\n' :: unlines (post ++ [last]) := by
      rw [← lines_inj, lines_append_newline, hpre, hpost, hlines]
    exact (getLast?_eq_return_iff hpre).1 (h _ _ ht)
  · rintro h pre post rfl
    rw [lines_append_newline, List.dropLast_append_of_ne_nil (lines_ne_nil post)] at h
    have hsplit := (List.dropLast_append_getLast (lines_ne_nil pre)).symm
    rw [getLast?_eq_return_iff hsplit]
    exact h _ (List.mem_append_left _ (List.getLast_mem _))

instance : DecidablePred IsCrlf := fun _ => decidable_of_iff _ isCrlf_iff_forall_lines.symm

/-- The lines of a text that ends in a line feed all end in carriage returns, and an empty one stands
    after them. -/
theorem IsCrlf.exists_lines {t : Text} (h : IsCrlf t) (hend : ['\r', '\n'] <:+ t) :
    ∃ ls, lines t = ls ++ [[]] ∧ ∀ l ∈ ls, Line.IsReturned l := by
  obtain ⟨u, rfl⟩ := hend
  have hlines : lines (u ++ ['\r', '\n']) = lines (u ++ ['\r']) ++ [[]] := by
    rw [← lines_nil, ← lines_append_newline, List.append_assoc]
    rfl
  refine ⟨_, hlines, ?_⟩
  rw [isCrlf_iff_forall_lines, hlines, List.dropLast_concat] at h
  exact h

end Text

end DbmlRestore
