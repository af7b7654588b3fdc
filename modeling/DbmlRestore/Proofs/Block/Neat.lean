import DbmlRestore.Proofs.Block.Whole

/-!
# Neat lines

Lines are *neat* (`Layout.IsNeat`) if no two blank ones are next to each other and the last one is
not blank. `Layout.neat` leaves out the blank lines at the end and makes one empty line of two or
more blank ones in a row; neat lines it leaves alone (`Layout.neat_of_isNeat`), and blank lines at
the end make no difference to it (`Layout.neat_append_of_blank`). Squeezing lines before an empty
one makes them neat (`Layout.squeeze_concat_nil`).

This is what tidying does to all lines but the first (`Layout.trimEnd_collapse_cons`), if no blank
line has another character than spaces, tabs and carriage returns. With the empty line after the
last line feed of a text, it squeezes all lines but the first (`Layout.lines_tidy_of_cons`).

A whole block stays whole when its lines are squeezed or made neat (`Block.IsWhole.squeezed`,
`Block.IsWhole.neat`).
-/

namespace DbmlRestore

/-- The text has no blank but spaces, tabs, carriage returns and line feeds. -/
def Text.HasPlainBlanks (t : Text) : Prop :=
  ∀ c ∈ t, isBlank c = true → c = ' ' ∨ c = '\t' ∨ c = '\r' ∨ c = '\n'

instance : DecidablePred Text.HasPlainBlanks := fun t => List.decidableBAll _ t

namespace Layout

variable {l m : Line} {ls ms : List Line}

/-! ## Squeezing -/

/-- A line that is not blank ends a run of empty lines. -/
theorem squeeze_cons_of_not_blank (hl : Line.isBlankLine l = false) (ls : List Line) :
    squeeze (l :: ls) = l :: squeeze ls := by
  rw [squeeze]
  cases squeeze ls with
  | nil => rfl
  | cons m ms =>
    show (if (Line.isBlankLine l && Line.isBlankLine m) = true then _ else _) = _
    rw [hl, Bool.false_and, if_neg Bool.false_ne_true]

/-- No blank lines come together where the second part starts with another line. -/
theorem squeeze_append_cons (hm : Line.isBlankLine m = false) (ls ms : List Line) :
    squeeze (ls ++ m :: ms) = squeeze ls ++ squeeze (m :: ms) := by
  induction ls with
  | nil => rfl
  | cons l ls ih =>
    rw [List.cons_append, squeeze, ih, squeeze_cons_of_not_blank hm]
    cases hs : squeeze ls with
    | nil =>
      show (if (Line.isBlankLine l && Line.isBlankLine m) = true then _ else _) = _
      rw [hm, Bool.and_false, if_neg Bool.false_ne_true, squeeze, hs]
      rfl
    | cons k ks =>
      show (if (Line.isBlankLine l && Line.isBlankLine k) = true then _ else _) = _
      rw [squeeze, hs]
      show _ = (if (Line.isBlankLine l && Line.isBlankLine k) = true then _ else _) ++ _
      split <;> rfl

/-- No blank lines come together where the first part ends with another line. -/
theorem squeeze_concat_append (hm : Line.isBlankLine m = false) (ls ms : List Line) :
    squeeze (ls ++ [m] ++ ms) = squeeze ls ++ [m] ++ squeeze ms := by
  rw [List.append_assoc, List.singleton_append, squeeze_append_cons hm,
    squeeze_cons_of_not_blank hm, List.append_assoc]
  rfl

/-- After shortening, no two empty lines follow one another. -/
theorem spaced_squeeze (ls : List Line) : Spaced (squeeze ls) := by
  induction ls with
  | nil => exact List.isChain_nil
  | cons l ls ih =>
    rw [squeeze]
    cases hs : squeeze ls with
    | nil => exact List.isChain_singleton l
    | cons m ms =>
      rw [hs] at ih
      show Spaced (if (Line.isBlankLine l && Line.isBlankLine m) = true then _ else _)
      split
      · next h =>
        -- The empty line is before what the blank line was before.
        rw [Bool.and_eq_true] at h
        obtain ⟨hhead, htail⟩ := List.isChain_cons.1 ih
        refine List.isChain_cons.2 ⟨fun k hk => ?_, htail⟩
        have := hhead k hk
        rwa [h.2] at this
      · next h => exact List.isChain_cons_cons.2 ⟨Bool.eq_false_iff.2 h, ih⟩

/-- Lines can be squeezed before or after a change that blank lines are left alone by. -/
theorem squeeze_map {f : Line → Line} (hf : ∀ l, Line.isBlankLine (f l) = Line.isBlankLine l)
    (hnil : f [] = []) (ls : List Line) : squeeze (ls.map f) = (squeeze ls).map f := by
  induction ls with
  | nil => rfl
  | cons l ls ih =>
    rw [List.map_cons, squeeze, ih, squeeze]
    cases squeeze ls with
    | nil => rfl
    | cons m ms =>
      show (if (Line.isBlankLine (f l) && Line.isBlankLine (f m)) = true then _ else _) =
        List.map f (if (Line.isBlankLine l && Line.isBlankLine m) = true then _ else _)
      rw [hf, hf]
      split
      · rw [List.map_cons, hnil]
      · rfl

/-- Squeezed lines are left alone the second time. -/
theorem squeeze_squeeze (ls : List Line) : squeeze (squeeze ls) = squeeze ls :=
  squeeze_of_spaced (spaced_squeeze ls)

/-- Blank lines before an empty one become one with it. -/
theorem squeeze_concat_nil_of_blank (h : ∀ l ∈ ls, Line.isBlankLine l = true) :
    squeeze (ls ++ [[]]) = [[]] := by
  induction ls with
  | nil => rfl
  | cons l ls ih =>
    rw [List.cons_append, squeeze, ih fun k hk => h k (List.mem_cons_of_mem l hk)]
    show (if (Line.isBlankLine l && true) = true then _ else _) = _
    rw [h l List.mem_cons_self]
    rfl

/-! ## Neat lines -/

/-- The lines without the blank ones at the end, and with no two blank ones in a row. -/
def neat (ls : List Line) : List Line := squeeze (Text.dropEndWhile Line.isBlankLine ls)

/-- No two blank lines are in a row, and the last line is not blank. -/
structure IsNeat (ls : List Line) : Prop where
  spaced : Spaced ls
  last : ∀ l ∈ ls.getLast?, Line.isBlankLine l = false

/-- Lines are blank, or some of them end with a line that is not blank and blank lines follow. -/
theorem exists_concat_append (ls : List Line) :
    (∀ l ∈ ls, Line.isBlankLine l = true) ∨ ∃ init m tail, ls = init ++ [m] ++ tail ∧
      Line.isBlankLine m = false ∧ ∀ l ∈ tail, Line.isBlankLine l = true := by
  induction ls with
  | nil => exact .inl fun _ h => absurd h List.not_mem_nil
  | cons l ls ih =>
    rcases ih with hall | ⟨init, m, tail, rfl, hm, htail⟩
    · cases hl : Line.isBlankLine l with
      | true =>
        refine .inl fun k hk => ?_
        rcases List.mem_cons.1 hk with rfl | hk
        · exact hl
        · exact hall k hk
      | false => exact .inr ⟨[], l, ls, rfl, hl, hall⟩
    · exact .inr ⟨l :: init, m, tail, rfl, hm, htail⟩

/-- Blank lines at the end are left out. -/
theorem neat_append_of_blank (h : ∀ m ∈ ms, Line.isBlankLine m = true) (ls : List Line) :
    neat (ls ++ ms) = neat ls := by
  rw [neat, Text.dropEndWhile_append_of_forall ls h, neat]

/-- At a last line that is not blank, making neat only squeezes what is before it. -/
theorem neat_concat (hm : Line.isBlankLine m = false) (ls : List Line) :
    neat (ls ++ [m]) = squeeze ls ++ [m] := by
  rw [neat, Text.dropEndWhile_append_of_exists ls ⟨m, List.mem_singleton_self m, hm⟩]
  have hself : Text.dropEndWhile Line.isBlankLine [m] = [m] := by simp [Text.dropEndWhile, hm]
  rw [hself, squeeze_append_cons hm]
  rfl

theorem neat_of_blank (h : ∀ l ∈ ls, Line.isBlankLine l = true) : neat ls = [] := by
  rw [neat, Text.dropEndWhile_eq_nil_iff.2 h]
  rfl

/-- What was made neat is neat. -/
theorem isNeat_neat (ls : List Line) : IsNeat (neat ls) := by
  refine ⟨spaced_squeeze _, ?_⟩
  rcases exists_concat_append ls with hall | ⟨init, m, tail, rfl, hm, htail⟩
  · rw [neat_of_blank hall]
    exact nofun
  · rw [neat_append_of_blank htail, neat_concat hm, List.getLast?_concat]
    intro l hl
    rwa [← Option.some.inj hl]

/-- Neat lines are left alone. -/
theorem neat_of_isNeat (h : IsNeat ls) : neat ls = ls := by
  rcases List.eq_nil_or_concat ls with rfl | ⟨init, m, rfl⟩
  · rfl
  · rw [List.concat_eq_append] at h ⊢
    have hm := h.last m (by rw [List.getLast?_concat]; rfl)
    rw [neat_concat hm, squeeze_of_spaced (List.isChain_append.1 h.spaced).1]

theorem neat_neat (ls : List Line) : neat (neat ls) = neat ls := neat_of_isNeat (isNeat_neat ls)

/-- Neat lines are lines that were there before, or empty. -/
theorem mem_neat (h : m ∈ neat ls) : m = [] ∨ m ∈ ls := by
  refine (mem_squeeze h).imp_right fun hm => ?_
  obtain ⟨tail, htail, -⟩ := Text.exists_append_dropEndWhile Line.isBlankLine ls
  exact htail ▸ List.mem_append_left tail hm

/-- Making lines neat only leaves out blank ones. -/
theorem inked_neat (ls : List Line) : Line.inked (neat ls) = Line.inked ls := by
  rcases exists_concat_append ls with hall | ⟨init, m, tail, rfl, hm, htail⟩
  · rw [neat_of_blank hall, Line.inked_eq_nil hall]
    rfl
  · rw [neat_append_of_blank htail, neat_concat hm, Line.inked_append, inked_squeeze,
      ← Line.inked_append, Line.inked_append _ tail, Line.inked_eq_nil htail, List.append_nil]

theorem neat_map {f : Line → Line} (hf : ∀ l, Line.isBlankLine (f l) = Line.isBlankLine l)
    (hnil : f [] = []) (ls : List Line) : neat (ls.map f) = (neat ls).map f := by
  have hcomp : Line.isBlankLine ∘ f = Line.isBlankLine := funext hf
  rw [neat, Text.dropEndWhile, ← List.map_reverse, List.dropWhile_map, hcomp, ← List.map_reverse,
    squeeze_map hf hnil]
  rfl

/-- A first line that is not blank is kept. -/
theorem neat_cons (hm : Line.isBlankLine m = false) (ms : List Line) :
    neat (m :: ms) = m :: neat ms := by
  rw [neat, Text.dropEndWhile_cons hm, squeeze_cons_of_not_blank hm, neat]

/-- An empty line at the end takes in the blank lines before it. -/
theorem squeeze_concat_nil (ls : List Line) : squeeze (ls ++ [[]]) = neat ls ++ [[]] := by
  rcases exists_concat_append ls with hall | ⟨init, m, tail, rfl, hm, htail⟩
  · rw [squeeze_concat_nil_of_blank hall, neat_of_blank hall, List.nil_append]
  · rw [neat_append_of_blank htail, neat_concat hm, List.append_assoc, squeeze_concat_append hm,
      squeeze_concat_nil_of_blank htail]

/-! ## Tidying -/

/-- Every blank line is of spaces, tabs and carriage returns. -/
def IsPadded (ls : List Line) : Prop := ∀ l ∈ ls, Line.isBlankLine l = true → isPadding l = true

theorem IsPadded.append (hls : IsPadded ls) (hms : IsPadded ms) : IsPadded (ls ++ ms) :=
  fun l hl => (List.mem_append.1 hl).elim (hls l) (hms l)

theorem isPadded_singleton_nil : IsPadded [[]] := fun l hl _ => by
  rw [List.mem_singleton.1 hl]
  rfl

/-- The blank lines of a text with plain blanks are padding. -/
theorem isPadded_lines {t : Text} (ht : t.HasPlainBlanks) : IsPadded (Text.lines t) := by
  intro l hl hb
  rw [Line.isBlankLine, List.all_eq_true] at hb
  refine List.all_eq_true.2 fun c hc => ?_
  rcases ht c ((Text.infix_of_mem_lines hl).subset hc) (hb c hc) with rfl | rfl | rfl | rfl
  · rfl
  · rfl
  · rfl
  · exact absurd hc (Text.newline_not_mem hl)

theorem isPadding_of_mem_squeeze (hls : IsPadded ls) (h : ∀ l ∈ ls, Line.isBlankLine l = true)
    (hm : m ∈ squeeze ls) : isPadding m = true := by
  rcases mem_squeeze hm with rfl | hm
  · rfl
  · exact hls m hm (h m hm)

/-- Tidying makes all lines but the first one neat. -/
theorem trimEnd_collapse_cons (first : Line) (hls : IsPadded ls) :
    trimEnd (collapse (first :: ls)) = first :: neat ls := by
  rw [collapse, List.cons_append, trimEnd]
  refine congrArg (List.cons first) ?_
  rcases exists_concat_append ls with hall | ⟨init, m, tail, rfl, hm, htail⟩
  · rw [neat_of_blank hall, Text.dropEndWhile_eq_nil_iff]
    intro l hl
    rcases List.mem_append.1 hl with hl | hl
    · have hsub := List.dropLast_subset ls
      exact isPadding_of_mem_squeeze (fun k hk => hls k (hsub hk)) (fun k hk => hall k (hsub hk)) hl
    · have hl := List.mem_of_getLast? (Option.mem_toList.1 hl)
      exact hls l hl (hall l hl)
  · have hm' : isPadding m = false := Bool.eq_false_iff.2 fun hp => by
      rw [isBlankLine_of_isPadding hp] at hm
      cases hm
    have hend : Text.dropEndWhile isPadding (squeeze init ++ [m]) = squeeze init ++ [m] := by
      rw [Text.dropEndWhile_append_of_exists _ ⟨m, List.mem_singleton_self m, hm'⟩,
        Text.dropEndWhile_cons hm']
      rfl
    rw [neat_append_of_blank htail, neat_concat hm]
    -- The last line is not squeezed, and is left out if it is blank.
    rcases List.eq_nil_or_concat tail with rfl | ⟨tail, l, rfl⟩
    · rw [List.append_nil, List.dropLast_concat, List.getLast?_concat]
      exact hend
    · rw [List.concat_eq_append] at hls htail ⊢
      have hpad : IsPadded (tail ++ [l]) := fun k hk => hls k (List.mem_append_right _ hk)
      rw [← List.append_assoc, List.dropLast_concat, List.getLast?_concat,
        squeeze_concat_append hm, List.append_assoc, Text.dropEndWhile_append_of_forall, hend]
      intro k hk
      rcases List.mem_append.1 hk with hk | hk
      · exact isPadding_of_mem_squeeze (fun j hj => hpad j (List.mem_append_left _ hj))
          (fun j hj => htail j (List.mem_append_left _ hj)) hk
      · have hk : k ∈ tail ++ [l] := List.mem_append_right _ hk
        exact hpad k hk (htail k hk)

/-- Tidying squeezes all lines but the first one. -/
theorem lines_tidy_of_cons {t : Text} {first : Line} (ht : Text.lines t = first :: ls)
    (hls : IsPadded ls) : Text.lines (tidy t) = first :: squeeze (ls ++ [[]]) := by
  rw [lines_tidy, ht, trimEnd_collapse_cons first hls, squeeze_concat_nil, List.cons_append]

end Layout

/-! ## Neat blocks -/

namespace Block

variable {b : Block} {bs : List Block}

/-- The block with no two blank lines in a row. -/
def squeezed (b : Block) : Block := { b with lines := Layout.squeeze b.lines }

/-- The block with neat lines. -/
def neat (b : Block) : Block := { b with lines := Layout.neat b.lines }

theorem squeezed_squeezed (b : Block) : b.squeezed.squeezed = b.squeezed := by
  rw [squeezed, squeezed, Layout.squeeze_squeeze]

theorem neat_neat (b : Block) : b.neat.neat = b.neat := by
  rw [neat, neat, Layout.neat_neat]

/-- A whole block starts with a line that is not blank. -/
theorem IsWhole.exists_lines_eq (hb : b.IsWhole) :
    ∃ m ms, b.lines = m :: ms ∧ Line.isBlankLine m = false := by
  obtain ⟨h, body, hspan⟩ := hb.span
  exact ⟨h, body, hspan.lines, hspan.header.isBlankLine_eq_false⟩

/-- The line that closes a block is not blank. -/
theorem IsClosed.exists_lines_eq (hb : b.IsClosed) :
    ∃ init last, b.lines = init ++ [last] ∧ Line.isBlankLine last = false := by
  obtain ⟨-, last, hlast, hcloses⟩ := hb
  obtain ⟨init, hinit⟩ := List.getLast?_eq_some_iff.1 hlast
  refine ⟨init, last, hinit, Bool.eq_false_iff.2 fun h => ?_⟩
  have hquiet : Line.IsQuiet last := .inl (Line.isBlankLine_iff.1 h)
  rw [hquiet.closes_eq] at hcloses
  exact Nat.lt_irrefl 0 hcloses

/-- A whole block stays whole, and open or closed, when its empty lines are squeezed. -/
theorem IsWhole.squeezed (hb : b.IsWhole) :
    b.squeezed.IsWhole ∧ (b.squeezed.IsClosed ↔ b.IsClosed) := by
  refine hb.respaced (Layout.inked_squeeze _) ?_ fun hc => ?_
  · obtain ⟨m, ms, hlines, hm⟩ := hb.exists_lines_eq
    rw [hlines, Layout.squeeze_cons_of_not_blank hm]
    rfl
  · obtain ⟨init, last, hlines, hlast⟩ := hc.exists_lines_eq
    rw [hlines, Layout.squeeze_append_cons hlast, List.getLast?_concat]
    exact List.getLast?_concat

/-- It does so as well when its lines are made neat. -/
theorem IsWhole.neat (hb : b.IsWhole) : b.neat.IsWhole ∧ (b.neat.IsClosed ↔ b.IsClosed) := by
  refine hb.respaced (Layout.inked_neat _) ?_ fun hc => ?_
  · obtain ⟨m, ms, hlines, hm⟩ := hb.exists_lines_eq
    rw [hlines, Layout.neat_cons hm]
    rfl
  · obtain ⟨init, last, hlines, hlast⟩ := hc.exists_lines_eq
    rw [hlines, Layout.neat_concat hlast, List.getLast?_concat, List.getLast?_concat]

/-- The empty line that follows a block makes no difference when it is made neat. -/
theorem neat_withGap (b : Block) : b.withGap.neat = b.neat := by
  rw [withGap]
  split
  · rfl
  · rw [neat, push, Layout.neat_append_of_blank fun l hl => by rw [List.mem_singleton.1 hl]; rfl,
      neat]

end Block

end DbmlRestore
