import DbmlRestore.Proofs.Block.Neat

/-!
# Sheets

A *sheet* is what a text is laid out from: its enums, its sorted tables and its references
(`Sheet.ofText`). Each of these parts is followed by an empty line, and the page of a sheet is made
of the parts that have blocks (`Sheet.page`).

Two steps lead from a sheet to the sheet of the text that is laid out from it, and both are taken
block by block:

* tidying squeezes every block, and also takes the blank lines away with which the last block of a
  part ends (`Sheet.neat`), so that the reordered text has the page of the neat sheet
  (`Block.lines_reorder`);
* the partition of a page finds the blocks of the sheet again, but the last block of a part takes
  the empty line after it if no brace closes it (`Sheet.gapped`, `Sheet.ofText_of_page`).

What the second step adds the first one takes away (`Sheet.neat_gapped_neat`), and therefore
reordering a second time changes nothing (`Block.reorder_reorder`).
-/

namespace DbmlRestore

namespace Layout

/-- No blank lines come together before a header. -/
theorem squeeze_append {ms : List Line} (hms : Line.Heads ms) (ls : List Line) :
    squeeze (ls ++ ms) = squeeze ls ++ squeeze ms := by
  cases ms with
  | nil => rw [List.append_nil, squeeze, List.append_nil]
  | cons m ms => exact squeeze_append_cons hms.isBlankLine_eq_false ls ms

end Layout

namespace Block

variable {b : Block} {bs : List Block} {f g f' g' : Block → Block}

/-! ## The last block of a part -/

/-- The blocks changed by `f`, and the last one by `g`. -/
def endwise (f g : Block → Block) : List Block → List Block
  | [] => []
  | [b] => [g b]
  | b :: c :: bs => f b :: endwise f g (c :: bs)

theorem isEmpty_endwise (f g : Block → Block) (bs : List Block) :
    (endwise f g bs).isEmpty = bs.isEmpty := by
  match bs with
  | [] => rfl
  | [_] => rfl
  | _ :: _ :: _ => rfl

/-- Two changes of all blocks, with another one at the end, are one change. -/
theorem endwise_endwise (bs : List Block) :
    endwise f' g' (endwise f g bs) = endwise (f' ∘ f) (g' ∘ g) bs := by
  induction bs with
  | nil => rfl
  | cons b bs ih =>
    cases bs with
    | nil => rfl
    | cons c bs =>
      rw [endwise, endwise, ← ih]
      cases bs <;> rfl

/-- The last block may be changed as the others are. -/
theorem endwise_self (f : Block → Block) (bs : List Block) : endwise f f bs = bs.map f := by
  induction bs with
  | nil => rfl
  | cons b bs ih =>
    cases bs with
    | nil => rfl
    | cons c bs => exact congrArg (List.cons (f b)) ih

/-- Each block comes from one of the blocks, by `f`, or by `g` if it is the last one. -/
theorem mem_endwise {c : Block} (h : c ∈ endwise f g bs) : ∃ b ∈ bs, c = f b ∨ c = g b := by
  induction bs with
  | nil => exact absurd h List.not_mem_nil
  | cons b bs ih =>
    cases bs with
    | nil => exact ⟨b, List.mem_cons_self, .inr (List.mem_singleton.1 h)⟩
    | cons d bs =>
      rcases List.mem_cons.1 h with rfl | h
      · exact ⟨b, List.mem_cons_self, .inl rfl⟩
      · obtain ⟨e, he, hc⟩ := ih h
        exact ⟨e, List.mem_cons_of_mem b he, hc⟩

/-- What neither of two changes touches is the same in all blocks. -/
theorem map_endwise {β : Type} {φ : Block → β} (hf : ∀ b, φ (f b) = φ b) (hg : ∀ b, φ (g b) = φ b)
    (bs : List Block) : (endwise f g bs).map φ = bs.map φ := by
  induction bs with
  | nil => rfl
  | cons b bs ih =>
    cases bs with
    | nil => exact congrArg (fun x => [x]) (hg b)
    | cons c bs =>
      rw [endwise, List.map_cons, ih, hf]
      rfl

/-! ## Parts -/

/-- The lines of blocks with an empty line after them; nothing if there are no blocks. -/
def part (bs : List Block) : List Line :=
  if bs.isEmpty then [] else bs.flatMap (·.lines) ++ [[]]

theorem part_singleton (b : Block) : part [b] = b.lines ++ [[]] := by
  rw [part, List.flatMap_singleton]
  rfl

theorem part_cons_cons (b c : Block) (bs : List Block) :
    part (b :: c :: bs) = b.lines ++ part (c :: bs) := by
  show (b :: c :: bs).flatMap (·.lines) ++ [[]] = b.lines ++ ((c :: bs).flatMap (·.lines) ++ [[]])
  rw [List.flatMap_cons, List.append_assoc]

/-- A part starts with the header of its first block. -/
theorem heads_part (hbs : ∀ b ∈ bs, b.IsWhole) : Line.Heads (part bs) := by
  cases bs with
  | nil => exact nofun
  | cons b bs =>
    obtain ⟨h, body, hspan⟩ := (hbs b List.mem_cons_self).span
    intro l hl
    rw [part, List.flatMap_cons, hspan.lines] at hl
    rw [← Option.some.inj hl, hspan.header.kind]
    rfl

/-- The blocks of a part squeezed, and the last one neat. -/
def neatly (bs : List Block) : List Block := endwise squeezed neat bs

/-- The blocks of a part, the last one with the empty line after it. -/
def gapped (bs : List Block) : List Block := endwise id withGap bs

/-- A part is squeezed block by block. -/
theorem part_neatly (hbs : ∀ b ∈ bs, b.IsWhole) : part (neatly bs) = Layout.squeeze (part bs) := by
  induction bs with
  | nil => rfl
  | cons b bs ih =>
    cases bs with
    | nil =>
      rw [neatly, endwise, part_singleton, part_singleton, Layout.squeeze_concat_nil]
      rfl
    | cons c bs =>
      have hrest : ∀ d ∈ c :: bs, d.IsWhole := fun d hd => hbs d (List.mem_cons_of_mem b hd)
      rw [part_cons_cons, Layout.squeeze_append (heads_part hrest), ← ih hrest]
      cases bs <;> exact part_cons_cons _ _ _

/-- The blocks of a part are found again. If the last one is not closed, it takes the empty
    line. -/
theorem proper_run_part {rest : List Line} (hbs : ∀ b ∈ bs, b.IsWhole) (hrest : Line.Heads rest)
    (started : Bool) : proper (Partition.run ⟨none, 0, started⟩ (part bs ++ rest)) =
      gapped bs ++ proper (Partition.run ⟨none, 0, true⟩ rest) := by
  induction bs generalizing started with
  | nil => exact Partition.proper_run_started none 0 started true rest
  | cons b bs ih =>
    have hb := hbs b List.mem_cons_self
    cases bs with
    | nil =>
      rw [part_singleton, List.append_assoc, List.singleton_append,
        Partition.proper_run_gap rfl hb hrest]
      rfl
    | cons c bs =>
      have hrest' : ∀ d ∈ c :: bs, d.IsWhole := fun d hd => hbs d (List.mem_cons_of_mem b hd)
      obtain ⟨_, _, hspan⟩ := hb.span
      rw [part_cons_cons, List.append_assoc,
        Partition.run_whole rfl hb ((heads_part hrest').append hrest), proper_append,
        proper_cons hspan.header.kind_ne_other, ih hrest']
      rfl

/-- The blocks of the last part are read back, with a gap at the end of an open one. -/
theorem proper_run_last_part (hbs : ∀ b ∈ bs, b.IsWhole) (started : Bool) :
    proper (Partition.run ⟨none, 0, started⟩ (part bs)) = gapped bs := by
  have hend : Line.Heads [] := nofun
  have hpart := proper_run_part hbs hend started
  rw [List.append_nil] at hpart
  exact hpart.trans (List.append_nil _)

/-! ## Changes that keep a block whole -/

/-- A change of the lines of blocks that leaves whole ones whole and their blank lines padding. -/
structure Keeps (f : Block → Block) : Prop where
  kind : ∀ b, (f b).kind = b.kind
  rank? : ∀ index b, (f b).rank? index = b.rank? index
  whole : ∀ b, b.IsWhole → (f b).IsWhole
  padded : ∀ b, Layout.IsPadded b.lines → Layout.IsPadded (f b).lines

/-- Squeezing blocks keeps all that the layout looks at. -/
theorem keeps_squeezed : Keeps squeezed where
  kind _ := rfl
  rank? _ _ := rfl
  whole _ hb := hb.squeezed.1
  padded b hb l hl := by
    rcases Layout.mem_squeeze hl with rfl | hl
    · exact fun _ => rfl
    · exact hb l hl

/-- Making blocks neat keeps all that the layout looks at. -/
theorem keeps_neat : Keeps neat where
  kind _ := rfl
  rank? _ _ := rfl
  whole _ hb := hb.neat.1
  padded b hb l hl := by
    rcases Layout.mem_neat hl with rfl | hl
    · exact fun _ => rfl
    · exact hb l hl

/-- To leave blocks as they are keeps all that the layout looks at. -/
theorem keeps_id : Keeps id := ⟨fun _ => rfl, fun _ _ => rfl, fun _ => id, fun _ => id⟩

/-- A gap at the end keeps the kind, the rank, the wholeness and the padding of a block. -/
theorem keeps_withGap : Keeps withGap where
  kind b := by rw [withGap]; split <;> rfl
  rank? index b := by rw [withGap]; split <;> rfl
  whole b hb := hb.withGap
  padded b hb l hl := by
    rw [withGap] at hl
    split at hl
    · exact hb l hl
    · rcases List.mem_append.1 hl with hl | hl
      · exact hb l hl
      · rw [List.mem_singleton.1 hl]
        exact fun _ => rfl

/-- The blocks are whole and of one kind, and their blank lines are padding. -/
structure ArePart (kind : BlockKind) (bs : List Block) : Prop where
  whole : ∀ b ∈ bs, b.IsWhole
  kind : ∀ b ∈ bs, b.kind = kind
  padded : ∀ b ∈ bs, Layout.IsPadded b.lines

/-- The blocks of a part are of one kind, so that there are none of another. -/
theorem ArePart.ofKind_eq {kind : BlockKind} (h : ArePart kind bs) (kind' : BlockKind) :
    ofKind bs kind' = if kind = kind' then bs else [] := by
  split
  · next heq =>
    exact List.filter_eq_self.2 fun b hb => decide_eq_true ((h.kind b hb).trans heq)
  · next hne =>
    refine List.filter_eq_nil_iff.2 fun b hb => ?_
    rwa [decide_eq_true_eq, h.kind b hb]

/-- The blank lines of a part are empty. -/
theorem ArePart.isPadded_part {kind : BlockKind} (h : ArePart kind bs) :
    Layout.IsPadded (part bs) := by
  rw [part]
  split
  · exact nofun
  · refine Layout.IsPadded.append (fun l hl => ?_) Layout.isPadded_singleton_nil
    obtain ⟨b, hb, hl⟩ := List.mem_flatMap.1 hl
    exact h.padded b hb l hl

/-- A change that keeps the kinds keeps the parts apart. -/
theorem ArePart.endwise {kind : BlockKind} (h : ArePart kind bs) (hf : Keeps f) (hg : Keeps g) :
    ArePart kind (endwise f g bs) := by
  refine ⟨fun c hc => ?_, fun c hc => ?_, fun c hc => ?_⟩ <;>
    obtain ⟨b, hb, rfl | rfl⟩ := mem_endwise hc
  · exact hf.whole b (h.whole b hb)
  · exact hg.whole b (h.whole b hb)
  · rw [hf.kind, h.kind b hb]
  · rw [hg.kind, h.kind b hb]
  · exact hf.padded b (h.padded b hb)
  · exact hg.padded b (h.padded b hb)

end Block

/-! ## Sheets -/

/-- The blocks that a text is laid out from. -/
structure Sheet where
  /-- The enums. -/
  enums : List Block
  /-- The tables, sorted. -/
  tables : List Block
  /-- The references. -/
  refs : List Block

namespace Sheet

open Block

variable {order : List TableEntry} {t : Text} {s : Sheet} {f g : Block → Block}

/-- The sheet of a text, its tables sorted into an order. -/
def ofText (order : List TableEntry) (t : Text) : Sheet where
  enums := ofKind (partition t) .enum
  tables := sortByRank (OrderIndex.ofOrder order) (ofKind (partition t) .table)
  refs := ofKind (partition t) .ref

/-- The empty lines at the top: one before references that nothing precedes, and two if there is
    no block at all. -/
def margin (s : Sheet) : List Line :=
  if s.enums.isEmpty && s.tables.isEmpty then if s.refs.isEmpty then [[], []] else [[]] else []

/-- The lines of a sheet, with the empty one after the last line feed. -/
def page (s : Sheet) : List Line :=
  s.margin ++ (part s.enums ++ (part s.tables ++ part s.refs))

/-- All parts are changed alike. -/
def endwise (f g : Block → Block) (s : Sheet) : Sheet :=
  ⟨Block.endwise f g s.enums, Block.endwise f g s.tables, Block.endwise f g s.refs⟩

/-- The sheet with its parts neat. -/
def neat (s : Sheet) : Sheet := s.endwise squeezed Block.neat

/-- The sheet with the empty lines that the parts take. -/
def gapped (s : Sheet) : Sheet := s.endwise id withGap

theorem neat_gapped_neat (s : Sheet) : s.neat.gapped.neat = s.neat := by
  have hsqueezed : squeezed ∘ id ∘ squeezed = squeezed := funext squeezed_squeezed
  have hneat : Block.neat ∘ withGap ∘ Block.neat = Block.neat := by
    funext b
    exact (neat_withGap b.neat).trans (neat_neat b)
  simp only [neat, gapped, endwise, endwise_endwise, hsqueezed, hneat]

/-- The lines between the parts of a sheet are empty. -/
theorem nil_of_mem_margin {l : Line} (h : l ∈ s.margin) : l = [] := by
  rw [margin] at h
  split at h
  · split at h
    · simpa using h
    · exact List.mem_singleton.1 h
  · exact absurd h List.not_mem_nil

/-- The margin hangs on which parts there are, and a change of blocks keeps them. -/
theorem margin_endwise (f g : Block → Block) (s : Sheet) : (s.endwise f g).margin = s.margin := by
  rw [margin, endwise, isEmpty_endwise, isEmpty_endwise, isEmpty_endwise, margin]

/-- The text that is tidied has the page of the sheet. -/
theorem lines_unlines_layout (order : List TableEntry) (t : Text) :
    Text.lines (Text.unlines (layout (OrderIndex.ofOrder order) (partition t))) ++ [[]] =
      (ofText order t).page := by
  by_cases hne : layout (OrderIndex.ofOrder order) (partition t) = []
  · obtain ⟨henums, htables, hrefs⟩ := layout_eq_nil_iff.1 hne
    rw [hne, page, margin, ofText, henums, htables, hrefs]
    rfl
  · rw [Text.lines_unlines hne, flatMap_lines_layout fun b hb => lines_of_mem_partition hb,
      laidOut, page, margin, ofText, part, part, part]
    rw [layout_eq_nil_iff] at hne
    -- All that matters is which parts have blocks.
    generalize ofKind (partition t) .enum = enums at hne ⊢
    generalize sortByRank (OrderIndex.ofOrder order) (ofKind (partition t) .table) = tables
      at hne ⊢
    generalize ofKind (partition t) .ref = refs at hne ⊢
    cases enums <;> cases tables <;> cases refs <;> simp at hne ⊢

/-- The parts of the sheet are made of whole blocks, and the tables are sorted. -/
structure IsSound (order : List TableEntry) (s : Sheet) : Prop where
  enums : ArePart .enum s.enums
  tables : ArePart .table s.tables
  refs : ArePart .ref s.refs
  sorted : s.tables.Pairwise fun a b =>
    rankLe (a.rank? (OrderIndex.ofOrder order)) (b.rank? (OrderIndex.ofOrder order)) = true

/-- A change of the blocks that keeps them whole and padded keeps the sheet sound. -/
theorem IsSound.endwise (hs : s.IsSound order) (hf : Keeps f) (hg : Keeps g) :
    (s.endwise f g).IsSound order := by
  refine ⟨hs.enums.endwise hf hg, hs.tables.endwise hf hg, hs.refs.endwise hf hg, ?_⟩
  have hranks := map_endwise (hf.rank? (OrderIndex.ofOrder order))
    (hg.rank? (OrderIndex.ofOrder order)) s.tables
  have hsorted := List.pairwise_map (R := fun i j => rankLe i j = true).2 hs.sorted
  rw [← hranks] at hsorted
  exact List.pairwise_map.1 hsorted

/-- A neat sheet is sound. -/
theorem IsSound.neat (hs : s.IsSound order) : s.neat.IsSound order :=
  hs.endwise keeps_squeezed keeps_neat

/-- A sheet with a gap at the end is sound. -/
theorem IsSound.gapped (hs : s.IsSound order) : s.gapped.IsSound order :=
  hs.endwise keeps_id keeps_withGap

/-- The sheet of a text whose braces balance, and whose blank lines are padding, is sound. -/
theorem isSound_ofText (hbal : Line.depthOf (Text.lines t) = 0)
    (hpad : Layout.IsPadded (Text.lines t)) (order : List TableEntry) :
    (ofText order t).IsSound order := by
  have hpart : ∀ kind ≠ .other, ArePart kind (ofKind (partition t) kind) := by
    intro kind hkind
    refine ⟨fun b hb => ?_, fun b hb => ?_, fun b hb => ?_⟩ <;>
      obtain ⟨hb, hk⟩ := List.mem_filter.1 hb <;> rw [decide_eq_true_eq] at hk
    · exact isWhole_of_mem_proper hbal (List.mem_filter.2 ⟨hb, decide_eq_true (hk ▸ hkind)⟩)
    · exact hk
    · exact (Partition.forall_mem_run (P := fun l => Line.isBlankLine l = true → Layout.isPadding l)
        (fun _ => rfl) hpad (fun _ hc => absurd hc (Option.not_mem_none _)) b hb).2
  have hsort := fun b => (List.mergeSort_perm (ofKind (partition t) .table)
    fun a b => rankLe (a.rank? (OrderIndex.ofOrder order))
      (b.rank? (OrderIndex.ofOrder order))).mem_iff (a := b)
  obtain ⟨hwhole, hkind, hpadded⟩ := hpart .table (by decide)
  refine ⟨hpart .enum (by decide), ⟨fun b hb => ?_, fun b hb => ?_, fun b hb => ?_⟩,
    hpart .ref (by decide), pairwise_sortByRank _ _⟩
  · exact hwhole b ((hsort b).1 hb)
  · exact hkind b ((hsort b).1 hb)
  · exact hpadded b ((hsort b).1 hb)

/-- Tidying a page makes the sheet neat. -/
theorem page_neat (hs : s.IsSound order) {first : Line} {rest : List Line}
    (hpage : s.page = first :: rest) : s.neat.page = first :: Layout.squeeze rest := by
  have htables := heads_part hs.tables.whole
  have hrefs := heads_part hs.refs.whole
  -- No blank lines come together between the parts.
  have hneat : s.neat.page =
      s.margin ++ Layout.squeeze (part s.enums ++ (part s.tables ++ part s.refs)) := by
    rw [Layout.squeeze_append (htables.append hrefs), Layout.squeeze_append hrefs,
      ← part_neatly hs.enums.whole, ← part_neatly hs.tables.whole, ← part_neatly hs.refs.whole,
      page, neat, margin_endwise]
    rfl
  rw [page] at hpage
  rw [hneat]
  -- The first line is not squeezed: it is one of the margin, or the header of a block.
  by_cases htop : s.enums.isEmpty && s.tables.isEmpty
  · rw [Bool.and_eq_true] at htop
    rw [margin, htop.1, htop.2, part, part, if_pos htop.1, if_pos htop.2] at hpage ⊢
    cases hrefs : s.refs.isEmpty with
    | true =>
      rw [part, hrefs] at hpage ⊢
      obtain ⟨rfl, rfl⟩ := List.cons.inj hpage
      rfl
    | false =>
      rw [hrefs] at hpage
      obtain ⟨rfl, rfl⟩ := List.cons.inj hpage
      rfl
  · rw [margin, if_neg htop, List.nil_append] at hpage ⊢
    have hheads := (heads_part hs.enums.whole).append (htables.append hrefs)
    rw [hpage] at hheads ⊢
    exact Layout.squeeze_cons_of_not_blank hheads.isBlankLine_eq_false rest

/-- The blank lines of a page are empty. -/
theorem IsSound.isPadded_page (hs : s.IsSound order) : Layout.IsPadded s.page := by
  refine .append ?_ (hs.enums.isPadded_part.append (hs.tables.isPadded_part.append
    hs.refs.isPadded_part))
  intro l hl _
  rw [nil_of_mem_margin hl]
  rfl

end Sheet

/-! ## Reordering twice -/

namespace Block

variable {order : List TableEntry} {t : Text} {s : Sheet}

/-- A reordered text has the page of the neat sheet. -/
theorem lines_reorder (hs : (Sheet.ofText order t).IsSound order) :
    Text.lines (reorder order t) = (Sheet.ofText order t).neat.page := by
  have hpage := Sheet.lines_unlines_layout order t
  have hpad := hs.isPadded_page
  obtain ⟨first, rest, hlines⟩ := List.exists_cons_of_ne_nil (Text.lines_ne_nil
    (Text.unlines (layout (OrderIndex.ofOrder order) (partition t))))
  rw [hlines, List.cons_append] at hpage
  rw [← hpage] at hpad
  rw [reorder, Layout.lines_tidy_of_cons hlines fun l hl =>
    hpad l (List.mem_cons_of_mem first (List.mem_append_left _ hl)), Sheet.page_neat hs hpage.symm]

end Block

namespace Sheet

open Block

variable {order : List TableEntry} {t : Text} {s : Sheet}

/-- The sheet of a text is known from its proper blocks. -/
theorem ofText_of_proper (hs : s.IsSound order)
    (ht : proper (partition t) = s.enums ++ (s.tables ++ s.refs)) : ofText order t = s := by
  have hkind : ∀ kind ≠ .other, ofKind (partition t) kind = ofKind s.enums kind ++
      (ofKind s.tables kind ++ ofKind s.refs kind) := by
    intro kind hk
    rw [← ofKind_proper hk, ht, Partition.ofKind_append, Partition.ofKind_append]
  have hsorted : sortByRank (OrderIndex.ofOrder order) s.tables = s.tables :=
    List.mergeSort_of_pairwise hs.sorted
  rw [ofText, hkind .enum (by decide), hkind .table (by decide), hkind .ref (by decide)]
  simp [hs.enums.ofKind_eq, hs.tables.ofKind_eq, hs.refs.ofKind_eq, hsorted]

/-- The sheet of a page is the sheet with the empty lines that its parts take. -/
theorem ofText_of_page (hs : s.IsSound order) (ht : Text.lines t = s.page) :
    ofText order t = s.gapped := by
  refine ofText_of_proper hs.gapped ?_
  have hrefs := heads_part hs.refs.whole
  rw [partition, ht, page, Partition.start, Partition.proper_run_inert,
    proper_run_part hs.enums.whole ((heads_part hs.tables.whole).append hrefs),
    proper_run_part hs.tables.whole hrefs, proper_run_last_part hs.refs.whole]
  · rfl
  · intro l hl
    rw [nil_of_mem_margin hl]
    exact Line.isInert_nil

end Sheet

namespace Block

/-- Reordering a text twice is reordering it once, if its braces balance over the whole text and it
    has no blank but the space, the tab, the carriage return and the line feed. -/
theorem reorder_reorder {order : List TableEntry} {t : Text}
    (hbal : Line.depthOf (Text.lines t) = 0) (hblank : t.HasPlainBlanks) :
    reorder order (reorder order t) = reorder order t := by
  have hs := Sheet.isSound_ofText hbal (Layout.isPadded_lines hblank) order
  have hlines := lines_reorder hs
  have hsheet := Sheet.ofText_of_page hs.neat hlines
  rw [← Text.lines_inj, hlines, lines_reorder (hsheet ▸ hs.neat.gapped), hsheet,
    Sheet.neat_gapped_neat]

/-- A table without braces is moved before a reference that takes what stands after it, and stray
    braces at the end take the depth below zero. -/
theorem reorder_reorder_unclosed :
    let order : List TableEntry := [⟨['b'], none⟩, ⟨['a'], none⟩]
    let t := ("// top\nTable a\n \nRef: a.x > b.x\nstray\n\n\t\n" ++
      "Table b \x7b\n\n\n\x7d\nEnum e \x7b\x7d\n\x7d\n\x7b").toList
    Line.depthOf (Text.lines t) = 0 ∧ Text.HasPlainBlanks t ∧
      reorder order (reorder order t) = reorder order t := by
  intro order t
  have hbal : Line.depthOf (Text.lines t) = 0 := by decide +kernel
  have hblank : Text.HasPlainBlanks t := by decide +kernel
  exact ⟨hbal, hblank, reorder_reorder hbal hblank⟩

end Block

end DbmlRestore
