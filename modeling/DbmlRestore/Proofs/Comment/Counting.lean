import DbmlRestore.Proofs.Comment.Repeating
import Mathlib.Algebra.GroupWithZero.Nat

/-!
# Counting comments

A text that is merged with comments has their lines and its own remarks
(`Comment.remarks_merge`). The comments that are read from a merged text have a line for every
remark of it, and each of them finds its site in every text that has the sites. So if they are
merged into some text, and give the merged text again, then they can only have been put where
they had been: the header is read as it was (`Comment.header_of_merge_eq`), no site has been
met twice, and the text has no remark of its own (`Comment.counts_of_merge_eq`).
-/

namespace DbmlRestore

namespace Line

/-- The number of the lines that are comments. -/
def remarks (ls : List Line) : Nat := ls.countP fun l => isComment (Text.trim l)

theorem remarks_append (ls ls' : List Line) : remarks (ls ++ ls') = remarks ls + remarks ls' :=
  List.countP_append

theorem remarks_cons (l : Line) (ls : List Line) : remarks (l :: ls) = remarks [l] + remarks ls :=
  remarks_append [l] ls

theorem remarks_eq_length {ls : List Line} (h : ∀ l ∈ ls, IsRemark l) : remarks ls = ls.length :=
  List.countP_eq_length.2 fun l hl => (h l hl).isComment

/-- There are no remarks if none of the lines is a comment. -/
theorem remarks_eq_zero_iff {ls : List Line} :
    remarks ls = 0 ↔ ∀ l ∈ ls, isComment (Text.trim l) = false := by
  simp only [remarks, List.countP_eq_zero, Bool.not_eq_true]

end Line

/-! ## Remarks -/

/-- Dressed lines have the remarks above them and those among themselves. -/
theorem Dressing.remarks_flatMap_lines {ds : List Dressing} (hds : ∀ d ∈ ds, d.IsProper) :
    Line.remarks (ds.flatMap Dressing.lines) =
      (ds.flatMap (·.above)).length + Line.remarks (ds.map (·.line)) := by
  induction ds with
  | nil => rfl
  | cons d ds ih =>
    have hd := hds d List.mem_cons_self
    have hline : Line.remarks [d.dressed] = Line.remarks [d.line] := by
      rw [Line.remarks, Line.remarks, List.countP_singleton, List.countP_singleton,
        hd.dressed.continues.isComment_eq]
    rw [List.flatMap_cons, Dressing.lines, Line.remarks_append, Line.remarks_append,
      Line.remarks_eq_length hd.above, hline, ih fun e he => hds e (List.mem_cons_of_mem d he),
      List.flatMap_cons, List.length_append, List.map_cons, Line.remarks_cons d.line (ds.map _)]
    omega

/-! ## Marked lines -/

/-- Whether a line has a comment mark but is not a comment as a whole. -/
def Line.isMarked (l : Line) : Bool := Text.holds commentMark l && !isComment (Text.trim l)

/-- Without the remarks, dressed lines are left alone. -/
theorem Dressing.filter_flatMap_lines {ds : List Dressing} (hds : ∀ d ∈ ds, d.IsProper)
    (hline : ∀ d ∈ ds, Line.isComment (Text.trim d.line) = false) :
    (ds.flatMap Dressing.lines).filter (fun l => !Line.isComment (Text.trim l)) =
      ds.map (·.dressed) := by
  induction ds with
  | nil => rfl
  | cons d ds ih =>
    have hd := hds d List.mem_cons_self
    have habove : d.above.filter (fun l => !Line.isComment (Text.trim l)) = [] :=
      List.filter_eq_nil_iff.2 fun r hr => by rw [(hd.above r hr).isComment]; exact nofun
    have hdressed : Line.isComment (Text.trim d.dressed) = false :=
      hd.dressed.continues.isComment_eq.trans (hline d List.mem_cons_self)
    rw [List.flatMap_cons, Dressing.lines, List.filter_append, List.filter_append, habove,
      ih (fun e he => hds e (List.mem_cons_of_mem d he))
        (fun e he => hline e (List.mem_cons_of_mem d he)),
      List.filter_cons_of_pos (by rw [hdressed]; rfl), List.map_cons]
    rfl

/-- If each line is as it was or gets marked, no fewer lines are marked than were; and if as
    many are, then all lines are as they were. -/
theorem Dressing.countP_isMarked_le {ds : List Dressing}
    (hds : ∀ d ∈ ds, d.dressed = d.line ∨
      Line.isMarked d.line = false ∧ Line.isMarked d.dressed = true) :
    (ds.map (·.line)).countP Line.isMarked ≤ (ds.map (·.dressed)).countP Line.isMarked ∧
      ((ds.map (·.dressed)).countP Line.isMarked ≤ (ds.map (·.line)).countP Line.isMarked →
        ds.map (·.dressed) = ds.map (·.line)) := by
  induction ds with
  | nil => exact ⟨Nat.le_refl 0, fun _ => rfl⟩
  | cons d ds ih =>
    obtain ⟨hle, heq⟩ := ih fun e he => hds e (List.mem_cons_of_mem d he)
    rw [List.map_cons, List.map_cons, List.countP_cons, List.countP_cons]
    rcases hds d List.mem_cons_self with h | ⟨hl, hd⟩
    · rw [h]
      exact ⟨Nat.add_le_add_right hle _, fun hc => by rw [heq (Nat.le_of_add_le_add_right hc)]⟩
    · rw [hl, hd, if_pos rfl, if_neg Bool.false_ne_true]
      exact ⟨by omega, fun hc => absurd hc (by omega)⟩

/-- A line is as it was, or it was not marked and is now. -/
theorem Merging.dressed_eq_or_isMarked {m : Merging} {cs : List Comment}
    (hcs : ∀ c ∈ cs, c.IsPlain) {ls : List Line} {d : Dressing} (hd : d ∈ m.dressings cs ls)
    (hline : Line.isComment (Text.trim d.line) = false) :
    d.dressed = d.line ∨ Line.isMarked d.line = false ∧ Line.isMarked d.dressed = true := by
  induction ls generalizing m with
  | nil => exact absurd hd List.not_mem_nil
  | cons l ls ih =>
    rcases List.mem_cons.1 hd with rfl | hd
    · have hdressed : Line.Dressed l (m.kept cs l) := kept_dressed hcs
      rw [Line.isMarked, Line.isMarked, hdressed.continues.isComment_eq, hline]
      show m.kept cs l = l ∨ _
      -- Only a line without a mark gets a comment, and has one then.
      rw [kept_eq]
      split
      · split
        · exact .inl rfl
        · next hmark =>
          split
          · next c hc =>
            obtain ⟨e, he, hk, -, rfl⟩ := Comment.exists_of_inlineText?_eq_some hc
            rw [Line.holds_withComment ((hcs e he).inline hk).1.isInfix]
            exact .inr ⟨by rw [Bool.not_eq_true] at hmark; rw [hmark]; rfl, rfl⟩
          · exact .inl rfl
      · exact .inl rfl
    · exact ih hd

/-! ## Sums -/

/-- If no term gets smaller and something is left over, the sum gets greater. -/
theorem eq_of_sum_map_eq {α : Type} {f g : α → Nat} {xs : List α} {n : Nat}
    (hle : ∀ x ∈ xs, f x ≤ g x) (hsum : (xs.map f).sum = (xs.map g).sum + n) :
    n = 0 ∧ ∀ x ∈ xs, f x = g x := by
  induction xs generalizing n with
  | nil => exact ⟨(Nat.zero_add n ▸ hsum).symm, fun _ h => nomatch h⟩
  | cons x xs ih =>
    rw [List.map_cons, List.sum_cons, List.map_cons, List.sum_cons] at hsum
    have hx := hle x List.mem_cons_self
    obtain ⟨hn, hxs⟩ := ih (n := g x - f x + n) (fun y hy => hle y (List.mem_cons_of_mem x hy))
      (by omega)
    refine ⟨by omega, fun y hy => ?_⟩
    rcases List.mem_cons.1 hy with rfl | hy
    · omega
    · exact hxs y hy

namespace Comment

variable {cs : List Comment} {t u : Text}

/-- All lines at the top but the empty one are remarks. -/
theorem remarks_top (hcs : ∀ c ∈ cs, c.IsPlain) :
    Line.remarks (top cs) = (linesOf cs .header).length := by
  rw [top_eq]
  split
  · next h => rw [h]; rfl
  · rw [Line.remarks_append, Line.remarks_eq_length fun r hr => isRemark_of_mem_linesOf hcs hr]
    rfl

/-- All lines at the bottom but the empty one are remarks. -/
theorem remarks_bottom (hcs : ∀ c ∈ cs, c.IsPlain) :
    Line.remarks (bottom cs) = (linesOf cs .footer).length := by
  rw [bottom_eq]
  split
  · next h => rw [h]; rfl
  · rw [Line.remarks_cons,
      Line.remarks_eq_length fun r hr => isRemark_of_mem_linesOf hcs hr]
    exact Nat.zero_add _

/-- A merged text has the lines of the comments, and the remarks of the text. -/
theorem remarks_merge (hcs : ∀ c ∈ cs, c.IsPlain)
    (hz : Line.AtZero Line.IsTableHeader 0 (Text.lines t)) :
    Line.remarks (Text.lines (merge cs t)) =
      (linesOf cs .header).length +
        ((Merging.start.sites (Text.lines t)).map fun x => (linesOn cs x).length).sum +
        Line.remarks (Text.lines t) + (linesOf cs .footer).length := by
  rw [lines_merge hcs, Line.remarks_append, Line.remarks_append, remarks_top hcs,
    remarks_bottom hcs,
    Dressing.remarks_flatMap_lines fun d hd => Merging.isProper_of_mem_dressings hcs hd,
    Merging.flatMap_above_dressings hz, Merging.map_line_dressings, List.length_flatMap]
  omega

/-- All lines of plain comments are remarks. -/
theorem filter_linesOf (hcs : ∀ c ∈ cs, c.IsPlain) (k : CommentKind) :
    (linesOf cs k).filter (fun l => !Line.isComment (Text.trim l)) = [] :=
  List.filter_eq_nil_iff.2 fun r hr => by
    rw [(isRemark_of_mem_linesOf hcs hr).isComment]
    exact nofun

/-- Without the remarks, the top is an empty line or nothing. -/
theorem filter_top (hcs : ∀ c ∈ cs, c.IsPlain) :
    (top cs).filter (fun l => !Line.isComment (Text.trim l)) =
      if linesOf cs .header = [] then [] else [[]] := by
  rw [top_eq]
  split
  · rfl
  · rw [List.filter_append, filter_linesOf hcs]
    rfl

/-- Without the remarks, the bottom is an empty line or nothing. -/
theorem filter_bottom (hcs : ∀ c ∈ cs, c.IsPlain) :
    (bottom cs).filter (fun l => !Line.isComment (Text.trim l)) =
      if linesOf cs .footer = [] then [] else [[]] := by
  rw [bottom_eq]
  split
  · rfl
  · rw [List.filter_cons_of_pos rfl, filter_linesOf hcs]

/-- A merged text without its remarks. -/
theorem filter_lines_merge (hcs : ∀ c ∈ cs, c.IsPlain)
    (ht : ∀ l ∈ Text.lines t, Line.isComment (Text.trim l) = false) :
    (Text.lines (merge cs t)).filter (fun l => !Line.isComment (Text.trim l)) =
      (if linesOf cs .header = [] then [] else [[]]) ++
        (Merging.start.dressings cs (Text.lines t)).map (·.dressed) ++
        (if linesOf cs .footer = [] then [] else [[]]) := by
  rw [lines_merge hcs, List.filter_append, List.filter_append, filter_top hcs, filter_bottom hcs,
    Dressing.filter_flatMap_lines (fun d hd => Merging.isProper_of_mem_dressings hcs hd)
      fun d hd => ht d.line (Merging.line_mem_of_mem_dressings hd)]

/-! ## The header -/

/-- If a list starts with as many elements of a kind as an initial part of it has, and the part
    ends with one, then the part is these elements. -/
theorem eq_of_append_eq {α : Type} {p : α → Bool} {xs zs rs ws : List α} {r y : α}
    (h : xs ++ r :: zs = rs ++ y :: ws) (hr : p r = true)
    (hrs : ∀ a ∈ rs, p a = true) (hcount : xs.countP p + 1 = rs.length) : zs = y :: ws := by
  have h' : (xs ++ [r]) ++ zs = rs ++ y :: ws := by rw [List.append_assoc]; exact h
  rcases List.append_eq_append_iff.1 h' with ⟨as, hrs', hzs⟩ | ⟨bs, hxs, hws⟩
  · -- The part is not longer than what it has of the kind, and that is the beginning.
    have hle : xs.countP p ≤ xs.length := List.countP_le_length
    have hlen := congrArg List.length hrs'
    rw [List.length_append, List.length_append, List.length_singleton] at hlen
    have has : as = [] := List.eq_nil_of_length_eq_zero (by omega)
    rw [hzs, has]
    rfl
  · cases bs with
    | nil => exact hws.symm
    | cons b bs =>
      -- The part would have one more at its end.
      exfalso
      have hrest : (b :: bs).countP p = 0 := by
        have hcount' := congrArg (List.countP p) hxs
        rw [List.countP_append, List.countP_append, List.countP_eq_length.2 hrs,
          List.countP_singleton, if_pos hr] at hcount'
        omega
      have hlast : r ∈ b :: bs := by
        have := congrArg List.getLast? hxs
        rw [List.getLast?_concat, List.getLast?_append_of_ne_nil _ (List.cons_ne_nil b bs)] at this
        exact List.mem_of_getLast? this.symm
      exact absurd hr (List.countP_eq_zero.1 hrest r hlast)

/-- After the last line of the header stands an empty line. -/
theorem eq_nil_cons_of_remarks (hcs : ∀ c ∈ cs, c.IsPlain) {xs zs : List Line} {r : Line}
    (hlines : Text.lines (merge cs t) = xs ++ r :: zs) (hr : Line.IsRemark r)
    (hcount : Line.remarks xs + 1 = (linesOf cs .header).length) : ∃ ws, zs = [] :: ws := by
  have hne : linesOf cs .header ≠ [] := by
    intro h
    rw [h] at hcount
    exact nomatch hcount
  rw [lines_merge hcs, top_eq, if_neg hne, List.append_assoc, List.append_assoc] at hlines
  refine ⟨_, eq_of_append_eq hlines.symm hr.isComment (fun l hl => ?_) hcount⟩
  exact (isRemark_of_mem_linesOf hcs hl).isComment

/-- Before the first definition there are no remarks, but those of the header. -/
theorem remarks_of_undefined (hcs : ∀ c ∈ cs, c.IsPlain) {pre : List Line}
    (hbare : ∀ l ∈ pre, Line.IsBare l) (hpre : ∀ l ∈ pre, Line.isDefinition l = false) :
    Line.remarks (top cs ++ (Merging.start.dressings cs pre).flatMap Dressing.lines) =
      (linesOf cs .header).length := by
  have hz : Line.AtZero Line.IsTableHeader 0 pre := by
    intro pre' l post hsplit hl
    have := (Line.isDefinition_eq_false_iff.1 (hpre l (hsplit ▸ by simp))).1
    rw [Line.IsTableHeader, this] at hl
    cases hl
  rw [Line.remarks_append, remarks_top hcs,
    Dressing.remarks_flatMap_lines fun d hd => Merging.isProper_of_mem_dressings hcs hd,
    Merging.flatMap_above_dressings hz, (Merging.sites_of_undefined cs hpre rfl).1,
    Merging.map_line_dressings,
    Line.remarks_eq_zero_iff.2 fun l hl => (hbare l hl).isComment_eq_false]
  rfl

variable (hcs : ∀ c ∈ cs, c.IsPlain) (ht : ∀ l ∈ Text.lines t, Line.IsBare l)
  (hz : Line.AtZero Line.IsTableHeader 0 (Text.lines t))
  (hbal : Line.depthOf (Text.lines t) = 0)
include hcs ht hz hbal

/-- If there is a definition, the lines above it are not read as more of the header: the last of
    them would have the empty line after the header where the definition stands. -/
theorem header_of_merge_eq_of_definition {pre post : List Line} {l : Line}
    (hsplit : Text.lines t = pre ++ l :: post) (hpre : ∀ k ∈ pre, Line.isDefinition k = false)
    (hl : Line.isDefinition l = true) (heq : merge (extract (merge cs t)) u = merge cs t) :
    linesOf (extract (merge cs t)) .header = linesOf cs .header := by
  have hplain := isPlain_of_mem_extract_merge hcs ht hz hbal
  obtain ⟨hheader, -, -⟩ := lines_extract_merge_of_definition hcs ht hz hbal hsplit hpre hl
  rw [hheader, List.append_right_eq_self]
  by_contra hne
  -- The last of the lines above the first definition stands right before it.
  obtain ⟨rs, r, hr⟩ := (List.eq_nil_or_concat _).resolve_left hne
  rw [List.concat_eq_append] at hr
  have hremark : ∀ k ∈ rs ++ [r], Line.IsRemark k := by
    intro k hk
    obtain ⟨x, -, hk⟩ := List.mem_flatMap.1 (hr ▸ hk)
    exact isRemark_of_mem_linesOn hcs hk
  have habove : (Merging.start.after cs pre).above cs l = rs ++ [r] := by
    rw [← hr]
    refine Merging.above_eq_sites fun h => ?_
    rw [Merging.after_scan, TableScan.after_depth]
    exact hz pre l post hsplit h
  have hF : Text.lines (merge cs t) =
      (top cs ++ (Merging.start.dressings cs pre).flatMap Dressing.lines ++ rs) ++ r ::
        ((Merging.start.after cs pre).kept cs l ::
          ((((Merging.start.after cs pre).next cs l).dressings cs post).flatMap Dressing.lines ++
            bottom cs)) := by
    rw [lines_merge hcs, hsplit, Merging.dressings_append, List.flatMap_append,
      Merging.dressings, List.flatMap_cons, Dressing.lines, habove]
    simp only [List.append_assoc, List.cons_append, List.nil_append]
  have hbare : ∀ k ∈ pre, Line.IsBare k := fun k hk => ht k (hsplit ▸ List.mem_append_left _ hk)
  have hlines := (congrArg Text.lines heq).trans hF
  obtain ⟨ws, hws⟩ := eq_nil_cons_of_remarks hplain hlines (hremark r (by simp)) (by
    rw [hheader, List.length_append, hr, List.length_append, Line.remarks_append,
      remarks_of_undefined hcs hbare hpre,
      Line.remarks_eq_length fun k hk => hremark k (List.mem_append_left _ hk)]
    rfl)
  -- The line of the definition would be empty.
  have hkept : Text.trim l = [] := by
    rw [← (Merging.kept_dressed (m := Merging.start.after cs pre) hcs).continues.trim_eq_nil_iff,
      (List.cons.inj hws).1]
    rfl
  rw [Line.isDefinition, hkept] at hl
  cases hl

/-- If there is no definition, neither are the lines of the footer: nothing stands after them. -/
theorem header_of_merge_eq_of_undefined
    (hundef : ∀ l ∈ Text.lines t, Line.isDefinition l = false)
    (heq : merge (extract (merge cs t)) u = merge cs t) :
    linesOf (extract (merge cs t)) .header = linesOf cs .header := by
  have hplain := isPlain_of_mem_extract_merge hcs ht hz hbal
  obtain ⟨hheader, -, -⟩ := lines_extract_merge_of_undefined hcs ht hbal hundef
  rw [hheader, List.append_right_eq_self]
  by_contra hne
  obtain ⟨rs, r, hr⟩ := (List.eq_nil_or_concat _).resolve_left hne
  rw [List.concat_eq_append] at hr
  have hremark : ∀ k ∈ rs ++ [r], Line.IsRemark k :=
    fun k hk => isRemark_of_mem_linesOf hcs (hr ▸ hk)
  have hF : Text.lines (merge cs t) =
      (top cs ++ (Merging.start.dressings cs (Text.lines t)).flatMap Dressing.lines ++
        [] :: rs) ++ r :: [] := by
    rw [lines_merge hcs, bottom_eq, if_neg hne, hr]
    simp only [List.append_assoc, List.cons_append]
  have hlines := (congrArg Text.lines heq).trans hF
  -- All remarks are put at the top, so that the last of them cannot stand at the bottom.
  obtain ⟨ws, hws⟩ := eq_nil_cons_of_remarks hplain hlines (hremark r (by simp)) (by
    rw [hheader, List.length_append, hr, List.length_append, Line.remarks_append,
      remarks_of_undefined hcs ht hundef, Line.remarks_cons,
      Line.remarks_eq_length fun k hk => hremark k (List.mem_append_left _ hk)]
    show _ + (0 + _) + 1 = _ + (_ + 1)
    omega)
  cases hws

/-- Comments that give the merged text again have the header as it was: with more lines in
    it, the empty line after it would stand later. -/
theorem header_of_merge_eq (heq : merge (extract (merge cs t)) u = merge cs t) :
    linesOf (extract (merge cs t)) .header = linesOf cs .header := by
  by_cases hdef : ∃ l ∈ Text.lines t, Line.isDefinition l = true
  · obtain ⟨pre, l, post, hsplit, hpre, hl⟩ := exists_first_definition hdef
    exact header_of_merge_eq_of_definition hcs ht hz hbal hsplit hpre hl heq
  · refine header_of_merge_eq_of_undefined hcs ht hz hbal (fun l hl => ?_) heq
    exact Bool.eq_false_iff.2 fun h => hdef ⟨l, hl, h⟩

/-- Comments that give the merged text again find no site twice, and no remark in the text. -/
theorem counts_of_merge_eq (heq : merge (extract (merge cs t)) u = merge cs t) :
    Line.remarks (Text.lines u) = 0 ∧ ∀ x ∈ Merging.start.sites (Text.lines t),
      (Merging.start.sites (Text.lines t)).count x = 1 ∨ linesOn cs x = [] := by
  have hplain := isPlain_of_mem_extract_merge hcs ht hz hbal
  have hheader := header_of_merge_eq hcs ht hz hbal heq
  obtain ⟨hfooter, hon⟩ := linesOn_extract_merge hcs ht hz hbal hheader
  -- The text has the depths and the sites of the other one.
  have hzu : Line.AtZero Line.IsTableHeader 0 (Text.lines u) := by
    rw [← atZero_tableHeader_merge hplain, heq]
    exact (atZero_tableHeader_merge hcs).2 hz
  have hbalu : Line.depthOf (Text.lines u) = 0 := by
    rw [← depthOf_merge hplain, heq, depthOf_merge hcs, hbal]
  have hsites : Merging.start.sites (Text.lines u) = Merging.start.sites (Text.lines t) := by
    rw [← sites_merge hplain hzu hbalu, heq, sites_merge hcs hz hbal]
  have hbare : Line.remarks (Text.lines t) = 0 :=
    Line.remarks_eq_zero_iff.2 fun l hl => (ht l hl).isComment_eq_false
  have hcount := remarks_merge hplain hzu
  rw [heq, remarks_merge hcs hz, hheader, hfooter, hsites, hbare] at hcount
  have hlen : ∀ x ∈ Merging.start.sites (Text.lines t),
      (linesOn (extract (merge cs t)) x).length =
        (Merging.start.sites (Text.lines t)).count x * (linesOn cs x).length := by
    intro x hx
    rw [hon x (Merging.kind_of_mem_sites hx), List.filter_eq, List.length_flatMap,
      List.map_replicate, List.sum_replicate_nat]
  have hle : ∀ x ∈ Merging.start.sites (Text.lines t),
      (linesOn cs x).length ≤ (linesOn (extract (merge cs t)) x).length := by
    intro x hx
    rw [hlen x hx]
    exact Nat.le_mul_of_pos_left _ (List.count_pos_iff.2 hx)
  obtain ⟨hzero, hsame⟩ := eq_of_sum_map_eq (n := Line.remarks (Text.lines u)) hle (by omega)
  refine ⟨hzero, fun x hx => ?_⟩
  have hx' := (hsame x hx).trans (hlen x hx)
  rcases Nat.eq_zero_or_pos (linesOn cs x).length with h | h
  · exact .inr (List.eq_nil_of_length_eq_zero h)
  · exact .inl (Nat.eq_of_mul_eq_mul_right h (by omega))

/-- A text into which the comments can be put again, and that has as many marked lines, is the
    text with the comments at the ends of its lines. -/
theorem eq_merge_endings_of_merge_eq (heq : merge (extract (merge cs t)) u = merge cs t)
    (hmarks : (Text.lines (merge cs t)).countP Line.isMarked ≤
      (Text.lines u).countP Line.isMarked) :
    u = merge (endings cs) t := by
  have hplain := isPlain_of_mem_extract_merge hcs ht hz hbal
  have hheader := header_of_merge_eq hcs ht hz hbal heq
  obtain ⟨hfooter, -⟩ := linesOn_extract_merge hcs ht hz hbal hheader
  have hno := Line.remarks_eq_zero_iff.1 (counts_of_merge_eq hcs ht hz hbal heq).1
  have hbare : ∀ l ∈ Text.lines t, Line.isComment (Text.trim l) = false :=
    fun l hl => (ht l hl).isComment_eq_false
  -- Without their remarks both texts are lists of dressed lines.
  have hdressed : (Merging.start.dressings (extract (merge cs t)) (Text.lines u)).map (·.dressed) =
      (Merging.start.dressings cs (Text.lines t)).map (·.dressed) := by
    have hfilter := congrArg (fun t =>
      (Text.lines t).filter fun l => !Line.isComment (Text.trim l)) heq
    rw [filter_lines_merge hplain hno, filter_lines_merge hcs hbare, hheader, hfooter] at hfilter
    exact List.append_cancel_left (List.append_cancel_right hfilter)
  have hsub : ((Merging.start.dressings cs (Text.lines t)).map (·.dressed)).Sublist
      (Text.lines (merge cs t)) := by
    have hfilter := List.filter_sublist (p := fun l => !Line.isComment (Text.trim l))
      (l := Text.lines (merge cs t))
    rw [filter_lines_merge hcs hbare] at hfilter
    exact ((List.sublist_append_right _ _).trans (List.sublist_append_left _ _)).trans hfilter
  have hmarked : ∀ d ∈ Merging.start.dressings (extract (merge cs t)) (Text.lines u),
      d.dressed = d.line ∨ Line.isMarked d.line = false ∧ Line.isMarked d.dressed = true := by
    intro d hd
    exact Merging.dressed_eq_or_isMarked hplain hd (hno _ (Merging.line_mem_of_mem_dressings hd))
  have hsame := (Dressing.countP_isMarked_le hmarked).2 (by
    rw [hdressed, Merging.map_line_dressings]
    exact (hsub.countP_le).trans hmarks)
  rw [← Text.lines_inj, lines_merge_endings hcs hz, ← hdressed, hsame, Merging.map_line_dressings]

end Comment

end DbmlRestore
