import DbmlRestore.Proofs.Block.Enclosed
import DbmlRestore.Proofs.Block.Reorder

/-!
# Balanced blocks

In a text whose braces balance, and whose headers all stand at depth zero, each block balances
and has its headers at depth zero (`Partition.isBalanced_of_mem_run`), as the block that is open
comes to the depth of the partition (`Partition.comesTo_step`). Laying blocks out again
changes nothing but blank lines and the order of the blocks (`Block.inked_reorder`), so that the
reordered text is of the same sort (`Block.atZero_reorder`, `Block.depthOf_reorder`).
-/

namespace DbmlRestore

namespace Line

/-- What holds of two runs of lines, the second from the depth after the first, holds of both. -/
theorem AtZero.append {p : Line → Prop} {d : Int} {ls ls' : List Line} (h : AtZero p d ls)
    (h' : AtZero p (d + depthOf ls) ls') : AtZero p d (ls ++ ls') := by
  induction ls generalizing d with
  | nil => rwa [depthOf_nil, Int.add_zero] at h'
  | cons l ls ih =>
    rw [depthOf_cons, ← Int.add_assoc] at h'
    exact AtZero.cons_iff.2 ⟨h.head, ih h.tail h'⟩

/-- The lines that are not blank. -/
def inked (ls : List Line) : List Line := ls.filter fun l => !isBlankLine l

theorem inked_append (ls ls' : List Line) : inked (ls ++ ls') = inked ls ++ inked ls' :=
  List.filter_append ..

theorem inked_cons_of_blank {l : Line} (h : isBlankLine l = true) (ls : List Line) :
    inked (l :: ls) = inked ls :=
  List.filter_cons_of_neg (by rw [h]; exact nofun)

theorem inked_cons_of_not_blank {l : Line} (h : isBlankLine l = false) (ls : List Line) :
    inked (l :: ls) = l :: inked ls :=
  List.filter_cons_of_pos (by rw [h]; rfl)

theorem inked_cons_congr (l : Line) {ls ls' : List Line} (h : inked ls = inked ls') :
    inked (l :: ls) = inked (l :: ls') := by
  rw [← List.singleton_append, inked_append, h, ← inked_append]
  rfl

theorem inked_eq_nil {ls : List Line} (h : ∀ l ∈ ls, isBlankLine l = true) : inked ls = [] :=
  List.filter_eq_nil_iff.2 fun l hl => by rw [h l hl]; exact nofun

/-- Blank lines are quiet, so that they are left out of the solid lines as well. -/
theorem solid_inked (ls : List Line) : solid (inked ls) = solid ls := by
  rw [solid, inked, List.filter_filter, solid]
  refine List.filter_congr fun l _ => ?_
  cases h : isBlankLine l with
  | false => exact Bool.and_true _
  | true =>
    have hq : IsQuiet l := .inl (isBlankLine_iff.1 h)
    simp [hq]

/-- Blank lines have no braces, so that leaving them out keeps the depth. -/
theorem depthOf_inked (ls : List Line) : depthOf (inked ls) = depthOf ls := by
  rw [← depthOf_solid, solid_inked, depthOf_solid]

/-- Leaving out blank lines moves no other line to another depth. -/
theorem AtZero.inked_iff {p : Line → Prop} (hp : ∀ l, IsQuiet l → ¬ p l) {d : Int}
    {ls : List Line} : AtZero p d (inked ls) ↔ AtZero p d ls := by
  rw [← AtZero.solid_iff hp, solid_inked, AtZero.solid_iff hp]

end Line

/-! ## Tidying -/

namespace Layout

/-- Runs of empty lines are no inked lines, so that shortening them keeps these. -/
theorem inked_squeeze (ls : List Line) : Line.inked (squeeze ls) = Line.inked ls := by
  induction ls with
  | nil => rfl
  | cons l ls ih =>
    rw [squeeze]
    cases hs : squeeze ls with
    | nil =>
      rw [hs] at ih
      exact Line.inked_cons_congr l ih
    | cons m ms =>
      rw [hs] at ih
      show Line.inked (if (Line.isBlankLine l && Line.isBlankLine m) = true then _ else _) = _
      split
      · next h =>
        rw [Bool.and_eq_true] at h
        rw [Line.inked_cons_of_blank h.1, ← ih, Line.inked_cons_of_blank h.2,
          Line.inked_cons_of_blank rfl]
      · exact Line.inked_cons_congr l ih

/-- Leaving out empty lines at the start and shortening runs of them keeps the inked lines. -/
theorem inked_collapse (ls : List Line) : Line.inked (collapse ls) = Line.inked ls := by
  cases ls with
  | nil => rfl
  | cons l ls =>
    rw [collapse, List.cons_append]
    refine Line.inked_cons_congr l ?_
    rw [Line.inked_append, inked_squeeze, ← Line.inked_append]
    rcases List.eq_nil_or_concat ls with rfl | ⟨ls, m, rfl⟩
    · rfl
    · rw [List.concat_eq_append, List.dropLast_concat, List.getLast?_concat]
      rfl

/-- Blank lines at the end are no inked lines. -/
theorem inked_trimEnd (ls : List Line) : Line.inked (trimEnd ls) = Line.inked ls := by
  cases ls with
  | nil => rfl
  | cons l ls =>
    refine Line.inked_cons_congr l ?_
    obtain ⟨tail, htail, hpad⟩ := Text.exists_append_dropEndWhile isPadding ls
    have hblank : Line.inked tail = [] :=
      Line.inked_eq_nil fun m hm => isBlankLine_of_isPadding (hpad m hm)
    have hls := congrArg Line.inked htail
    rw [Line.inked_append, hblank, List.append_nil] at hls
    exact hls.symm

/-- What is left when runs of empty lines are shortened was there before, or is an empty line. -/
theorem mem_squeeze {ls : List Line} {m : Line} (h : m ∈ squeeze ls) : m = [] ∨ m ∈ ls := by
  induction ls generalizing m with
  | nil => exact absurd h List.not_mem_nil
  | cons l ls ih =>
    rw [squeeze] at h
    cases hs : squeeze ls with
    | nil =>
      rw [hs] at h
      exact .inr (List.mem_singleton.1 h ▸ List.mem_cons_self)
    | cons k ks =>
      rw [hs] at h ih
      have hrest : ∀ {n}, n ∈ k :: ks → n = [] ∨ n ∈ l :: ls := fun hn =>
        (ih hn).imp_right (List.mem_cons_of_mem l)
      change m ∈ (if (Line.isBlankLine l && Line.isBlankLine k) = true then _ else _) at h
      split at h
      · rcases List.mem_cons.1 h with rfl | h
        · exact .inl rfl
        · exact hrest (List.mem_cons_of_mem k h)
      · rcases List.mem_cons.1 h with rfl | h
        · exact .inr List.mem_cons_self
        · exact hrest h

/-- Tidying makes no line but the empty one. -/
theorem mem_trimEnd_collapse {ls : List Line} {m : Line} (h : m ∈ trimEnd (collapse ls)) :
    m = [] ∨ m ∈ ls := by
  cases ls with
  | nil => exact absurd h List.not_mem_nil
  | cons l ls =>
    rw [collapse, List.cons_append, trimEnd] at h
    rcases List.mem_cons.1 h with rfl | h
    · exact .inr List.mem_cons_self
    · obtain ⟨tail, htail, -⟩ := Text.exists_append_dropEndWhile isPadding
        (squeeze ls.dropLast ++ ls.getLast?.toList)
      have h' : m ∈ squeeze ls.dropLast ++ ls.getLast?.toList :=
        htail ▸ List.mem_append_left tail h
      rcases List.mem_append.1 h' with h' | h'
      · exact (mem_squeeze h').imp_right fun h' =>
          List.mem_cons_of_mem l (List.dropLast_subset ls h')
      · exact .inr (List.mem_cons_of_mem l (List.mem_of_getLast? (Option.mem_toList.1 h')))

/-- Put together and cut again, the collapsed lines of a text, without their end, are the same. -/
theorem lines_unlines_trimEnd (t : Text) :
    Text.lines (Text.unlines (trimEnd (collapse (Text.lines t)))) =
      trimEnd (collapse (Text.lines t)) := by
  refine Text.lines_unlines_of_forall ?_ fun l hl => ?_
  · obtain ⟨l, ls, hl⟩ := List.exists_cons_of_ne_nil (Text.lines_ne_nil t)
    rw [hl]
    exact List.cons_ne_nil _ _
  · rcases mem_trimEnd_collapse hl with rfl | hl
    · exact List.not_mem_nil
    · exact Text.newline_not_mem hl

/-- A tidied text has the tidied lines, and an empty one after its last line feed. -/
theorem lines_tidy (t : Text) :
    Text.lines (tidy t) = trimEnd (collapse (Text.lines t)) ++ [[]] := by
  rw [tidy, Text.lines_append_newline, lines_unlines_trimEnd, Text.lines_nil]

/-- A tidied text has the lines of the text but for blank ones. -/
theorem inked_tidy (t : Text) : Line.inked (Text.lines (tidy t)) = Line.inked (Text.lines t) := by
  rw [lines_tidy, Line.inked_append, inked_trimEnd, inked_collapse]
  exact List.append_nil _

end Layout

/-! ## Laying out -/

namespace Block

variable {index : OrderIndex} {bs : List Block} {t : Text}

/-- The blocks in the order in which they are laid out. -/
def laid (index : OrderIndex) (bs : List Block) : List Block :=
  ofKind bs .enum ++ sortByRank index (ofKind bs .table) ++ ofKind bs .ref

/-- The blocks sorted by their kinds are those of some kind, in another order. -/
theorem ofKind_append_perm (bs : List Block) :
    (ofKind bs .enum ++ (ofKind bs .table ++ ofKind bs .ref)).Perm
      (bs.filter (·.kind ≠ .other)) := by
  induction bs with
  | nil => exact .nil
  | cons b bs ih =>
    have hcons : ∀ k, ofKind (b :: bs) k = (if b.kind = k then [b] else []) ++ ofKind bs k := by
      intro k
      by_cases h : b.kind = k <;> simp [ofKind, h]
    rw [hcons, hcons, hcons]
    -- The block stands in the part of its kind, out of which it is moved to the front.
    cases hk : b.kind with
    | enum =>
      rw [List.filter_cons_of_pos (by rw [hk]; rfl)]
      exact ih.cons b
    | table =>
      rw [List.filter_cons_of_pos (by rw [hk]; rfl)]
      exact List.perm_middle.trans (ih.cons b)
    | ref =>
      rw [List.filter_cons_of_pos (by rw [hk]; rfl)]
      refine ((List.Perm.refl _).append List.perm_middle).trans ?_
      exact List.perm_middle.trans (ih.cons b)
    | other =>
      rw [List.filter_cons_of_neg (by rw [hk]; decide)]
      exact ih

/-- All blocks are laid out but the lines outside of them. -/
theorem laid_perm (index : OrderIndex) (bs : List Block) :
    (laid index bs).Perm (bs.filter (·.kind ≠ .other)) := by
  rw [laid, List.append_assoc]
  refine List.Perm.trans ?_ (ofKind_append_perm bs)
  exact (List.Perm.refl _).append ((List.mergeSort_perm _ _).append (List.Perm.refl _))

/-- The lines between the blocks are empty, so that the inked lines are those of the blocks. -/
theorem inked_laidOut (index : OrderIndex) (bs : List Block) :
    Line.inked (laidOut index bs) = Line.inked ((laid index bs).flatMap (·.lines)) := by
  rw [laidOut, laid, List.flatMap_append, List.flatMap_append]
  simp only [Line.inked_append]
  congr 1
  · congr 1
    split
    · exact List.append_nil _
    · exact List.append_nil _
  · cases ofKind bs .ref with
    | nil => rfl
    | cons b bs => exact Line.inked_cons_of_blank rfl _

/-- A reordered text has the lines of its blocks, one block after the other, but for blank
    lines. -/
theorem inked_reorder (order : List TableEntry) (t : Text) :
    Line.inked (Text.lines (reorder order t)) =
      Line.inked ((laid (OrderIndex.ofOrder order) (partition t)).flatMap (·.lines)) := by
  rw [reorder, Layout.inked_tidy, ← inked_laidOut,
    ← flatMap_lines_layout fun b hb => lines_of_mem_partition hb]
  cases h : layout (OrderIndex.ofOrder order) (partition t) with
  | nil => rfl
  | cons p ps => rw [Text.lines_unlines (List.cons_ne_nil p ps)]

/-- The lines that are not blank are those of the blocks, in another order. -/
theorem inked_reorder_perm (order : List TableEntry) (t : Text) :
    (Line.inked (Text.lines (reorder order t))).Perm (Line.inked (enclosed (partition t))) := by
  rw [inked_reorder]
  exact ((laid_perm _ _).flatMap_right _).filter _

/-- The lines of the blocks that are not blank are lines of the reordered text. -/
theorem mem_reorder_of_mem_enclosed {order : List TableEntry} {t : Text} {l : Line}
    (hl : l ∈ enclosed (partition t)) (hblank : Line.isBlankLine l = false) :
    l ∈ Text.lines (reorder order t) := by
  have h : l ∈ Line.inked (enclosed (partition t)) :=
    List.mem_filter.2 ⟨hl, by rw [hblank]; rfl⟩
  exact List.mem_of_mem_filter ((inked_reorder_perm order t).mem_iff.2 h)

/-- The lines of a reordered text are blank or lines of a block. -/
theorem mem_enclosed_of_mem_reorder {order : List TableEntry} {t : Text} {l : Line}
    (hl : l ∈ Text.lines (reorder order t)) (hblank : Line.isBlankLine l = false) :
    l ∈ enclosed (partition t) := by
  have h : l ∈ Line.inked (Text.lines (reorder order t)) :=
    List.mem_filter.2 ⟨hl, by rw [hblank]; rfl⟩
  exact List.mem_of_mem_filter ((inked_reorder_perm order t).mem_iff.1 h)

end Block

/-! ## Balanced blocks -/

/-- Whether a line is a header that opens a block. -/
abbrev Line.IsHeader (l : Line) : Prop := (Block.opened? (Text.trim l)).isSome

theorem Line.isHeader_of_tableHeader? {l : Line} (h : (tableHeader? (Text.trim l)).isSome) :
    IsHeader l := by
  obtain ⟨header, hl⟩ := Option.isSome_iff_exists.1 h
  rw [IsHeader, Block.opened?, hl]
  rfl

/-- A quiet line is no header. -/
theorem Line.IsQuiet.not_isHeader {l : Line} (h : IsQuiet l) : ¬ IsHeader l := by
  rw [IsHeader, h.opened?_eq_none]
  exact Bool.false_ne_true

/-- The lines of the block balance, and headers stand at depth zero. -/
structure Block.IsBalanced (b : Block) : Prop where
  headers : Line.AtZero Line.IsHeader 0 b.lines
  depth : Line.depthOf b.lines = 0

/-- The lines of the block come to the given depth, and headers stand at depth zero. -/
structure Block.ComesTo (b : Block) (d : Int) : Prop where
  headers : Line.AtZero Line.IsHeader 0 b.lines
  depth : Line.depthOf b.lines = d

namespace Block.ComesTo

variable {b : Block} {d : Int} {l : Line}

theorem isBalanced (h : b.ComesTo 0) : b.IsBalanced := ⟨h.headers, h.depth⟩

/-- The header that opens a block stands at depth zero in it. -/
theorem of_opened? (h : opened? (Text.trim l) = some b) :
    (b.push l).ComesTo (Line.depthChange l) := by
  have hlines : (b.push l).lines = [l] := by rw [push, Line.lines_of_opened? h]; rfl
  constructor
  · rw [hlines]
    exact Line.AtZero.cons_iff.2 ⟨fun _ => rfl, .nil⟩
  · rw [hlines]
    exact Int.add_zero _

/-- A line joins the block at the depth that the block has come to. -/
theorem push (h : b.ComesTo d) (hl : Line.IsHeader l → d = 0) :
    (b.push l).ComesTo (d + Line.depthChange l) := by
  constructor
  · refine h.headers.append ?_
    rw [h.depth, Int.zero_add]
    exact Line.AtZero.cons_iff.2 ⟨hl, .nil⟩
  · rw [Block.push, Line.depthOf_append, h.depth]
    exact congrArg _ (Int.add_zero _)

end Block.ComesTo

namespace Partition

variable {p : Partition} {l : Line} {ls : List Line}

/-- The open block comes to the depth of the partition, so that a block that is complete
    balances. -/
theorem comesTo_step (hl : Line.IsHeader l → p.depth = 0)
    (hcur : ∀ b ∈ p.current, b.ComesTo p.depth) :
    (∀ b ∈ (p.step l).1, b.kind ≠ .other → b.IsBalanced) ∧
      ∀ b ∈ (p.step l).2.current, b.ComesTo (p.step l).2.depth :=
  forall_step (H := fun d b => b.ComesTo d) (Q := fun b => b.kind ≠ .other → b.IsBalanced) hcur
    (fun _ _ hb => .of_opened? hb) (fun b hb => (hcur b hb).push hl) (fun _ hb _ => hb.isBalanced)
    fun _ _ _ hb hkind => absurd (kind_of_mem_alone hb) hkind

/-- In a balanced text whose headers stand at depth zero, the blocks of every kind are balanced:
    none is left open at the end. -/
theorem isBalanced_of_mem_run (hz : Line.AtZero Line.IsHeader p.depth ls)
    (hbal : p.depth + Line.depthOf ls = 0) (hcur : ∀ b ∈ p.current, b.ComesTo p.depth)
    {b : Block} (hb : b ∈ p.run ls) (hkind : b.kind ≠ .other) : b.IsBalanced := by
  refine forall_run (Q := fun b => b.kind ≠ .other → b.IsBalanced) (I := fun p ls =>
    Line.AtZero Line.IsHeader p.depth ls ∧ p.depth + Line.depthOf ls = 0 ∧
      ∀ b ∈ p.current, b.ComesTo p.depth) ?_ ?_ ⟨hz, hbal, hcur⟩ b hb hkind
  · rintro p l ls ⟨hz, hbal, hcur⟩
    obtain ⟨hcompleted, hopen⟩ := comesTo_step hz.head hcur
    rw [Line.depthOf_cons, ← Int.add_assoc] at hbal
    refine ⟨hcompleted, ?_, ?_, hopen⟩
    · rw [step_depth]
      exact hz.tail
    · rw [step_depth]
      exact hbal
  · rintro p ⟨-, hbal, hcur⟩ b hb -
    rw [Line.depthOf_nil, Int.add_zero] at hbal
    exact (hbal ▸ hcur b hb).isBalanced

end Partition

namespace Block

/-- Blocks that balance, one after the other. -/
theorem atZero_flatMap_lines {bs : List Block} (h : ∀ b ∈ bs, b.IsBalanced) :
    Line.AtZero Line.IsHeader 0 (bs.flatMap (·.lines)) ∧
      Line.depthOf (bs.flatMap (·.lines)) = 0 := by
  induction bs with
  | nil => exact ⟨.nil, rfl⟩
  | cons b bs ih =>
    have hb := h b List.mem_cons_self
    obtain ⟨hheaders, hdepth⟩ := ih fun c hc => h c (List.mem_cons_of_mem b hc)
    rw [List.flatMap_cons, Line.depthOf_append, hb.depth, hdepth]
    refine ⟨hb.headers.append ?_, rfl⟩
    rw [hb.depth]
    exact hheaders

section

variable {t : Text} (hz : Line.AtZero Line.IsHeader 0 (Text.lines t))
  (hbal : Line.depthOf (Text.lines t) = 0) (order : List TableEntry)
include hz hbal

/-- The blocks of a layout are balanced, as each is a block of the text. -/
theorem isBalanced_of_mem_laid {index : OrderIndex} {b : Block}
    (hb : b ∈ laid index (partition t)) : b.IsBalanced := by
  obtain ⟨hmem, hkind⟩ := List.mem_filter.1 ((laid_perm index (partition t)).mem_iff.1 hb)
  exact Partition.isBalanced_of_mem_run (p := .start) hz ((Int.zero_add _).trans hbal)
    (fun _ h => nomatch h) hmem (of_decide_eq_true hkind)

/-- Headers stand at depth zero after reordering. -/
theorem atZero_reorder : Line.AtZero Line.IsHeader 0 (Text.lines (reorder order t)) := by
  have hp := fun l (hl : Line.IsQuiet l) => hl.not_isHeader
  rw [← Line.AtZero.inked_iff hp, inked_reorder, Line.AtZero.inked_iff hp]
  exact (atZero_flatMap_lines fun b hb => isBalanced_of_mem_laid hz hbal hb).1

/-- Braces balance after reordering. -/
theorem depthOf_reorder : Line.depthOf (Text.lines (reorder order t)) = 0 := by
  rw [← Line.depthOf_inked, inked_reorder, Line.depthOf_inked]
  exact (atZero_flatMap_lines fun b hb => isBalanced_of_mem_laid hz hbal hb).2

end

/-- Reordering makes no comment. -/
theorem isBare_of_mem_reorder {t : Text} (ht : ∀ l ∈ Text.lines t, Line.IsBare l)
    {order : List TableEntry} {l : Line} (hl : l ∈ Text.lines (reorder order t)) :
    Line.IsBare l := by
  cases hblank : Line.isBlankLine l with
  | true => exact Line.isBare_of_trim_eq_nil (Line.isBlankLine_iff.1 hblank)
  | false =>
    obtain ⟨b, hb, -, hl⟩ := mem_enclosed.1 (mem_enclosed_of_mem_reorder hl hblank)
    exact (Partition.forall_mem_run (p := .start) (Line.isBare_of_trim_eq_nil rfl) ht
      (fun _ h => nomatch h) b hb).2 l hl

/-- Texts with the same blocks are reordered alike. -/
theorem reorder_congr {t t' : Text} (order : List TableEntry)
    (h : ∀ k, k ≠ .other → ofKind (partition t) k = ofKind (partition t') k) :
    reorder order t = reorder order t' := by
  rw [reorder, reorder, layout, layout, h .enum (by decide), h .table (by decide),
    h .ref (by decide)]

end Block

end DbmlRestore
