import DbmlRestore.Line
import Mathlib.Data.List.DropRight

/-!
# Lines and pieces

A text is joined from *pieces* of one or more lines, and cut into its lines
again. The lines of the joined text are the lines of the pieces, one after the
other (`lines_unlines`): joining never makes a line out of two pieces, as a line
feed stands between each two.

Trimming looks at a text from both ends. Blanks put in front of a text make no
difference (`trim_append_of_blank_left`), and nothing is left of a text if and only if
all of it is blank (`trim_eq_nil_iff`).
-/

namespace DbmlRestore

namespace Text

/-! ## Lines -/

@[simp] theorem lines_nil : lines [] = [[]] := rfl

theorem lines_cons_newline (t : Text) : lines ('\n' :: t) = [] :: lines t := by
  rw [lines, if_pos rfl]

/-- A character other than a line feed goes to the first line. -/
theorem lines_cons_of_ne {c : Char} (hc : c ≠ '\n') {t : Text} {l : Line} {ls : List Line}
    (h : lines t = l :: ls) : lines (c :: t) = (c :: l) :: ls := by
  rw [lines, if_neg hc, h]

/-- A line feed ends a line. -/
theorem lines_append_newline (s t : Text) : lines (s ++ '\n' :: t) = lines s ++ lines t := by
  induction s with
  | nil => exact lines_cons_newline t
  | cons c s ih =>
    obtain ⟨l, ls, hl⟩ := List.exists_cons_of_ne_nil (lines_ne_nil s)
    rw [hl, List.cons_append] at ih
    by_cases hc : c = '\n'
    · rw [hc, List.cons_append, lines_cons_newline, lines_cons_newline, ih, hl]
      rfl
    · rw [List.cons_append, lines_cons_of_ne hc ih, lines_cons_of_ne hc hl, List.cons_append]

/-- No line holds a line feed. -/
theorem newline_not_mem {t : Text} {l : Line} (h : l ∈ lines t) : '\n' ∉ l := by
  induction t generalizing l with
  | nil =>
    rw [lines_nil, List.mem_singleton] at h
    rw [h]
    exact List.not_mem_nil
  | cons c t ih =>
    obtain ⟨m, ms, hm⟩ := List.exists_cons_of_ne_nil (lines_ne_nil t)
    by_cases hc : c = '\n'
    · rw [hc, lines_cons_newline] at h
      rcases List.mem_cons.1 h with rfl | h
      · exact List.not_mem_nil
      · exact ih h
    · rw [lines_cons_of_ne hc hm] at h
      rcases List.mem_cons.1 h with rfl | h
      · rw [List.mem_cons, not_or]
        exact ⟨fun e => hc e.symm, ih (hm ▸ List.mem_cons_self)⟩
      · exact ih (hm ▸ List.mem_cons_of_mem m h)

/-- A piece is a part of the joined text. -/
theorem infix_unlines_of_mem {ps : List Text} {p : Text} (h : p ∈ ps) : p <:+: unlines ps := by
  induction ps with
  | nil => exact absurd h List.not_mem_nil
  | cons q ps ih =>
    cases ps with
    | nil =>
      rewrite [List.mem_singleton.1 h, unlines_singleton]
      exact List.infix_rfl
    | cons r ps =>
      rw [unlines_cons_cons]
      rcases List.mem_cons.1 h with rfl | h
      · exact (List.prefix_append _ _).isInfix
      · exact (ih h).trans ((List.suffix_cons _ _).trans (List.suffix_append _ _)).isInfix

/-- The lines of a text are parts of it. -/
theorem infix_of_mem_lines {t : Text} {l : Line} (h : l ∈ lines t) : l <:+: t := by
  have := infix_unlines_of_mem h
  rwa [unlines_lines] at this

/-- A text without a line feed is one line. -/
theorem lines_eq_singleton {t : Text} (h : '\n' ∉ t) : lines t = [t] := by
  induction t with
  | nil => rfl
  | cons c t ih =>
    rw [List.mem_cons, not_or] at h
    exact lines_cons_of_ne (fun e => h.1 e.symm) (ih h.2)

/-- The lines of a joined text are the lines of its pieces. -/
theorem lines_unlines {ps : List Text} (h : ps ≠ []) : lines (unlines ps) = ps.flatMap lines := by
  induction ps with
  | nil => exact absurd rfl h
  | cons p ps ih =>
    cases ps with
    | nil => rw [unlines_singleton, List.flatMap_singleton]
    | cons q qs =>
      rw [unlines_cons_cons, lines_append_newline, ih (List.cons_ne_nil q qs)]
      rfl

/-- Pieces that are lines already are the lines of the joined text. -/
theorem flatMap_lines_of_forall {ls : List Line} (h : ∀ l ∈ ls, '\n' ∉ l) :
    ls.flatMap lines = ls := by
  induction ls with
  | nil => rfl
  | cons l ls ih =>
    rw [List.flatMap_cons, lines_eq_singleton (h l List.mem_cons_self),
      ih fun m hm => h m (List.mem_cons_of_mem l hm)]
    rfl

/-- Lines without line feeds are found again in the text that they are put together to. -/
theorem lines_unlines_of_forall {ls : List Line} (hne : ls ≠ []) (h : ∀ l ∈ ls, '\n' ∉ l) :
    lines (unlines ls) = ls := by
  rw [lines_unlines hne, flatMap_lines_of_forall h]

/-- A text is known by its lines. -/
theorem lines_inj {s t : Text} : lines s = lines t ↔ s = t :=
  ⟨fun h => by rw [← unlines_lines s, h, unlines_lines], fun h => h ▸ rfl⟩

theorem flatMap_lines_ne_nil {ps : List Text} (h : ps ≠ []) : ps.flatMap lines ≠ [] := by
  rw [← lines_unlines h]
  exact lines_ne_nil _

/-- No line of the pieces holds a line feed. -/
theorem newline_not_mem_flatMap {ps : List Text} {l : Line} (h : l ∈ ps.flatMap lines) :
    '\n' ∉ l := by
  obtain ⟨p, _, hl⟩ := List.mem_flatMap.1 h
  exact newline_not_mem hl

/-! ## Trimming -/

theorem dropEndWhile_eq_rdropWhile {α : Type} (p : α → Bool) (l : List α) :
    dropEndWhile p l = l.rdropWhile p := rfl

/-- Leaving out the end stops at an element that is not to be left out. -/
theorem dropEndWhile_append_of_exists {α : Type} {p : α → Bool} (s : List α) {t : List α}
    (h : ∃ a ∈ t, p a = false) : dropEndWhile p (s ++ t) = s ++ dropEndWhile p t := by
  have hne : t.reverse.dropWhile p ≠ [] := by
    obtain ⟨a, ha, hp⟩ := h
    intro he
    have := List.dropWhile_eq_nil_iff.1 he a (List.mem_reverse.2 ha)
    rw [hp] at this
    exact Bool.noConfusion this
  rw [dropEndWhile, dropEndWhile, List.reverse_append, List.dropWhile_append,
    if_neg (by rwa [List.isEmpty_iff]), List.reverse_append, List.reverse_reverse]

/-- What is to be left out at the end is left out, and more if there is more of it. -/
theorem dropEndWhile_append_of_forall {α : Type} {p : α → Bool} (s : List α) {t : List α}
    (h : ∀ a ∈ t, p a = true) : dropEndWhile p (s ++ t) = dropEndWhile p s := by
  rw [dropEndWhile, dropEndWhile, List.reverse_append, List.dropWhile_append_of_pos
    fun a ha => h a (List.mem_reverse.1 ha)]

theorem dropEndWhile_eq_nil_iff {α : Type} {p : α → Bool} {s : List α} :
    dropEndWhile p s = [] ↔ ∀ a ∈ s, p a = true := by
  rw [dropEndWhile_eq_rdropWhile, List.rdropWhile_eq_nil_iff]

/-- The blanks at the end are a part of the text that is left out. -/
theorem exists_append_dropEndWhile {α : Type} (p : α → Bool) (s : List α) :
    ∃ t, s = dropEndWhile p s ++ t ∧ ∀ a ∈ t, p a = true := by
  refine ⟨s.rtakeWhile p, ?_, fun a ha => List.mem_rtakeWhile_imp ha⟩
  rw [dropEndWhile_eq_rdropWhile, List.rdropWhile_append_rtakeWhile]

/-- What is left starts with the first member, if that one does not satisfy `p`. -/
theorem dropEndWhile_cons {α : Type} {p : α → Bool} {a : α} (ha : p a = false) (s : List α) :
    dropEndWhile p (a :: s) = a :: dropEndWhile p s := by
  by_cases h : ∃ b ∈ s, p b = false
  · exact dropEndWhile_append_of_exists [a] h
  · have hall : ∀ b ∈ s, p b = true := fun b hb => Bool.of_not_eq_false fun hf => h ⟨b, hb, hf⟩
    rw [dropEndWhile_eq_nil_iff.2 hall]
    refine (dropEndWhile_append_of_forall [a] hall).trans ?_
    rw [dropEndWhile, List.reverse_singleton,
      List.dropWhile_cons_of_neg (by rw [ha]; exact Bool.false_ne_true)]
    rfl

/-- A text that starts with a character other than a blank starts with it when it
    is trimmed. -/
theorem trim_cons {c : Char} (hc : isBlank c = false) (t : Text) :
    trim (c :: t) = c :: dropEndWhile isBlank t := by
  rw [trim, List.dropWhile_cons_of_neg (by rw [hc]; exact Bool.false_ne_true),
    dropEndWhile_cons hc]

/-- Blanks put before a text make no difference. -/
theorem trim_append_of_blank_left {s : Text} (hs : ∀ c ∈ s, isBlank c = true) (t : Text) :
    trim (s ++ t) = trim t := by
  rw [trim, trim, List.dropWhile_append_of_pos hs]

/-- Trimmed to nothing are texts of blanks, and no others. -/
theorem trim_eq_nil_iff {t : Text} : trim t = [] ↔ ∀ c ∈ t, isBlank c = true := by
  refine ⟨fun h => ?_, fun h => ?_⟩
  · rw [trim, dropEndWhile_eq_nil_iff] at h
    rw [← List.takeWhile_append_dropWhile (p := isBlank) (l := t)]
    intro c hc
    rcases List.mem_append.1 hc with hc | hc
    · exact List.mem_takeWhile_imp hc
    · exact h c hc
  · rw [trim, List.dropWhile_eq_nil_iff.2 h]
    rfl

end Text

end DbmlRestore
