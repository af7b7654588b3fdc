import DbmlRestore.Proofs.Comment.Sections
import DbmlRestore.Proofs.Comment.Sites

/-!
# Comments read again

The comments of a merged text are where they were put, with two exceptions: what stands above the
first definition is read as the header of the schema
(`Comment.lines_extract_merge_of_definition`), and without a definition so is the footer
(`Comment.lines_extract_merge_of_undefined`). If the header is read as it was, there is neither;
then the footer is read as it was, and each site has what was put there as often as the site is
met (`Comment.linesOn_extract_merge`).

All comments that are read are plain (`Comment.isPlain_of_mem_extract_merge`), and those at the
ends of lines have the keys of such comments that were put there (`Comment.of_mem_extract_merge`).
-/

namespace DbmlRestore

/-- A comment made of remarks is plain, if it may have several lines. -/
theorem Comment.isPlain_grouped (record : Text → Comment) (htext : ∀ t, (record t).text = t)
    (hkind : ∀ t, (record t).kind ≠ .field ∧ (record t).kind ≠ .inline) {ls : List Line}
    (hls : ∀ l ∈ ls, Line.IsRemark l) (hnl : ∀ l ∈ ls, '\n' ∉ l) {c : Comment}
    (hc : c ∈ grouped record ls) : c.IsPlain := by
  have hlines := flatMap_lines_grouped htext hnl
  have hkind' := mem_grouped hc ▸ hkind (Text.unlines ls)
  refine ⟨fun l hl => hls l ?_, fun h => absurd h hkind'.1, fun h => absurd h hkind'.2⟩
  rw [← hlines]
  exact List.mem_flatMap.2 ⟨c.text, List.mem_map_of_mem hc, hl⟩

/-- What stands before a carriage return at the end is bare if the line is. -/
theorem Line.IsBare.of_return {l : Line} (h : IsBare (l ++ ['\r'])) : IsBare l := by
  have htrim : Text.trim (l ++ ['\r']) = Text.trim l :=
    Text.trim_append_of_blank (List.all_eq_true.1 rfl) l
  refine ⟨?_, htrim ▸ h.noOpening⟩
  have hmark := h.noMark
  rw [← Bool.not_eq_true, Text.holds_eq_true_iff] at hmark ⊢
  exact fun hin => hmark (hin.trans (List.prefix_append l _).isInfix)

/-- A comment of one line is plain, if the line is a remark and holds no line feed. -/
theorem Comment.isPlain_of_isRemark {c : Comment} (h : Line.IsRemark c.text)
    (hnl : '\n' ∉ c.text) (hmark : c.kind = .inline → Line.commentMark <+: c.text) :
    c.IsPlain := by
  refine ⟨fun l hl => ?_, fun _ => hnl, fun hk => ⟨hmark hk, hnl⟩⟩
  rw [Text.lines_eq_singleton hnl, List.mem_singleton] at hl
  exact hl ▸ h

namespace Comment

/-! ## The lines of a kind -/

theorem linesOf_append (cs cs' : List Comment) (k : CommentKind) :
    linesOf (cs ++ cs') k = linesOf cs k ++ linesOf cs' k := by
  rw [linesOf, textsOf, List.filter_append, List.map_append, List.flatMap_append]
  rfl

theorem linesOf_eq_nil_of_forall {cs : List Comment} {k : CommentKind}
    (h : ∀ c ∈ cs, c.kind ≠ k) : linesOf cs k = [] := by
  rw [linesOf, textsOf, List.filter_eq_nil_iff.2 fun c hc => by simpa using h c hc]
  rfl

/-- The lines of the comments that lines were grouped to are these lines. -/
theorem linesOf_grouped (record : Text → Comment) (k : CommentKind)
    (hkind : ∀ t, (record t).kind = k) (htext : ∀ t, (record t).text = t) {ls : List Line}
    (h : ∀ l ∈ ls, '\n' ∉ l) : linesOf (grouped record ls) k = ls := by
  have hall : (grouped record ls).filter (·.kind = k) = grouped record ls :=
    List.filter_eq_self.2 fun c hc => by
      rw [mem_grouped hc]
      simpa using hkind _
  rw [linesOf, textsOf, hall, flatMap_lines_grouped htext h]

/-- Lines are grouped to comments of one kind, so that there are none of another. -/
theorem linesOf_grouped_of_ne (record : Text → Comment) (k : CommentKind)
    (hkind : ∀ t, (record t).kind ≠ k) (ls : List Line) : linesOf (grouped record ls) k = [] :=
  linesOf_eq_nil_of_forall fun _ hc => mem_grouped hc ▸ hkind _

theorem newline_not_mem_linesOf {cs : List Comment} {k : CommentKind} {l : Line}
    (h : l ∈ linesOf cs k) : '\n' ∉ l := Text.newline_not_mem_flatMap h

/-- Header and footer are on no site. -/
theorem linesOn_grouped_of_anchor_none (record : Text → Comment)
    (hrecord : ∀ t, (record t).anchor = .none) (ls : List Line) (x : Site) :
    linesOn (grouped record ls) x = [] := by
  refine linesOn_eq_nil_of_forall fun c hc hcx => ?_
  rw [mem_grouped hc, hrecord] at hcx
  exact nomatch hcx.2

end Comment

/-! ## What is read at a line -/

namespace Merging

variable {m : Merging} {cs : List Comment} {l : Line} {ls : List Line}

/-- Before the first definition there are no sites. -/
theorem sites_of_undefined (cs : List Comment) (hdef : ∀ l ∈ ls, Line.isDefinition l = false)
    (hs : m.scan.table? = none) : m.sites ls = [] ∧ (m.after cs ls).scan.table? = none := by
  induction ls generalizing m with
  | nil => exact ⟨rfl, hs⟩
  | cons l ls ih =>
    have hl := (Line.isDefinition_eq_false_iff.1 (hdef l List.mem_cons_self)).1
    have hb : m.scan.bodyTable? = none := by rw [TableScan.bodyTable?, hs, ite_self]
    have hs' : (m.next cs l).scan.table? = none := by
      rw [next_scan]
      exact TableScan.pass_table?_of_idle hs hl
    obtain ⟨hsites, hafter⟩ := ih (fun k hk => hdef k (List.mem_cons_of_mem l hk)) hs'
    rw [sites_cons cs, hsites, sitesAt_of_none hl, hb]
    exact ⟨rfl, hafter⟩

/-- A line records comments above a table, inside of one, and at its own end. -/
theorem kind_of_mem_recordsAt {c : Comment} (h : c ∈ m.recordsAt cs l) :
    c.kind = .table ∨ c.kind = .field ∨ c.kind = .inline := by
  rw [recordsAt] at h
  split at h
  · rw [Comment.mem_grouped h]
    exact .inl rfl
  · rcases List.mem_append.1 h with h | h
    · split at h
      · obtain ⟨r, -, rfl⟩ := List.mem_map.1 h
        exact .inr (.inl rfl)
      · exact absurd h List.not_mem_nil
    · exact .inr (.inr (Comment.kind_of_mem_inlineOf h))

/-- A line that is not kept as it is has a field for which there is a comment. -/
theorem isSome_inlineText?_of_kept_ne (hl : Line.IsBare l)
    (ht : Line.tableHeader? (Text.trim l) = none) {t f : Text} (hs : m.scan.table? = some t)
    (hf : Line.fieldName? (Text.trim l) = some f) (hne : m.kept cs l ≠ l) :
    (Comment.inlineText? cs t f).isSome := by
  rw [← Option.ne_none_iff_isSome]
  intro hnone
  refine hne ?_
  rw [kept_eq, TableScan.see_of_none ht, hs, hf]
  show (if Text.holds Line.commentMark l = true then l else _) = l
  rw [hl.noMark, if_neg Bool.false_ne_true, hnone]

/-- A comment that is read at the end of a line was put there, for a field of the table. -/
theorem of_mem_inlineOf_kept (hcs : ∀ c ∈ cs, c.IsPlain) (hl : Line.IsBare l) (hnl : '\n' ∉ l)
    (ht : Line.tableHeader? (Text.trim l) = none) {c : Comment}
    (hc : c ∈ Extraction.inlineOf ⟨m.scan, true, []⟩ (m.kept cs l)) :
    c.IsPlain ∧ ∃ t f, c.anchor = ⟨some t, some f⟩ ∧ (Comment.inlineText? cs t f).isSome := by
  have hne : m.kept cs l ≠ l := fun h => by
    rw [h, Extraction.inlineOf_of_bare _ hl] at hc
    exact absurd hc List.not_mem_nil
  cases hs : m.scan.table? with
  | none =>
    rw [Extraction.inlineOf_of_idle _ hs] at hc
    exact absurd hc List.not_mem_nil
  | some t =>
    have hkept : ∀ f, Line.fieldName? (Text.trim l) = some f →
        (Comment.inlineText? cs t f).isSome := fun f hf =>
      isSome_inlineText?_of_kept_ne hl ht hs hf hne
    have hnk := newline_not_mem_kept (m := m) (fun c hc hk => ((hcs c hc).inline hk).2) hnl
    have hd : Line.Dressed l (m.kept cs l) := kept_dressed hcs
    revert hc hnk hne
    generalize m.kept cs l = l' at hd
    intro hc hne hnk
    cases hd with
    | plain => exact absurd rfl hne
    | @comment body c' f hf hbody hmark ho hcl =>
      -- The comment stands after the line, or after what is left of it without the return.
      have hbody' : Line.IsBare body ∧ '\n' ∉ body ∧ Line.fieldName? (Text.trim body) = some f := by
        rcases hbody with rfl | rfl
        · exact ⟨hl, hnl, hf⟩
        · refine ⟨hl.of_return, fun h => hnl (List.mem_append_left _ h), ?_⟩
          rwa [Text.trim_append_of_blank (List.all_eq_true.1 rfl)] at hf
      have hnc : '\n' ∉ c' := fun h => hnk (List.mem_append_right _ (List.mem_cons_of_mem _ h))
      rw [Extraction.inlineOf_append_space ⟨m.scan, true, []⟩ hs hbody'.1 hbody'.2.1 hbody'.2.2
        hmark hnc, List.mem_singleton] at hc
      subst hc
      have hremark : Line.IsRemark c' := ⟨Line.isComment_of_prefix hmark, ho, hcl⟩
      exact ⟨Comment.isPlain_of_isRemark hremark hnc fun _ => hmark, t, f, rfl, hkept f hf⟩

/-- The comments that are read at a line are plain, and those at the end of the line were put
    there. -/
theorem of_mem_recordsAt (hcs : ∀ c ∈ cs, c.IsPlain) (hl : Line.IsBare l) (hnl : '\n' ∉ l)
    {c : Comment} (hc : c ∈ m.recordsAt cs l) :
    c.IsPlain ∧ (c.kind = .inline →
      ∃ t f, c.anchor = ⟨some t, some f⟩ ∧ (Comment.inlineText? cs t f).isSome) := by
  have hremark : ∀ r ∈ m.above cs l, Line.IsRemark r := fun r hr => isRemark_of_mem_above hcs hr
  have habove : ∀ r ∈ m.above cs l, '\n' ∉ r := fun r hr => Text.newline_not_mem_flatMap hr
  rw [recordsAt] at hc
  split at hc
  · next h ht =>
    -- The header of a table takes what stands above it.
    refine ⟨Comment.isPlain_grouped (.onTable · h.table) (fun _ => rfl)
      (fun _ => by constructor <;> rintro ⟨⟩) hremark habove hc, ?_⟩
    rw [Comment.mem_grouped hc]
    rintro ⟨⟩
  · next ht =>
    -- What stands above another line is in a body, and each comment of its own.
    rcases List.mem_append.1 hc with hc | hc
    · split at hc
      · obtain ⟨r, hr, rfl⟩ := List.mem_map.1 hc
        exact ⟨Comment.isPlain_of_isRemark (hremark r hr) (habove r hr) (by rintro ⟨⟩),
          by rintro ⟨⟩⟩
      · exact absurd hc List.not_mem_nil
    · obtain ⟨hplain, hkey⟩ := of_mem_inlineOf_kept hcs hl hnl ht hc
      exact ⟨hplain, fun _ => hkey⟩

/-- Each record was made at one of the lines, with the state that the lines before it lead to. -/
theorem exists_of_mem_records {c : Comment} (h : c ∈ m.records cs ls) :
    ∃ pre l post, ls = pre ++ l :: post ∧ c ∈ (m.after cs pre).recordsAt cs l := by
  induction ls generalizing m with
  | nil => exact absurd h List.not_mem_nil
  | cons l ls ih =>
    rcases List.mem_append.1 h with h | h
    · exact ⟨[], l, ls, rfl, h⟩
    · obtain ⟨pre, k, post, rfl, hc⟩ := ih h
      exact ⟨l :: pre, k, post, rfl, hc⟩

/-- After the first definition no header and no footer is read. -/
theorem linesOf_records {k : CommentKind} (hk : k = .header ∨ k = .footer) :
    Comment.linesOf (m.records cs ls) k = [] := by
  refine Comment.linesOf_eq_nil_of_forall fun c hc => ?_
  obtain ⟨_, _, _, -, hc⟩ := exists_of_mem_records hc
  rcases hk with rfl | rfl <;>
    rcases kind_of_mem_recordsAt hc with h | h | h <;> rw [h] <;> decide

end Merging

namespace Comment

/-! ## What is read of a text -/

variable {cs : List Comment} {t : Text}

section

variable (hcs : ∀ c ∈ cs, c.IsPlain) (ht : ∀ l ∈ Text.lines t, Line.IsBare l)
  (hz : Line.AtZero Line.IsTableHeader 0 (Text.lines t))
  (hbal : Line.depthOf (Text.lines t) = 0)
include hcs ht hz hbal

/-- The lines that are read, if there is a definition. -/
theorem lines_extract_merge_of_definition {pre post : List Line} {l : Line}
    (hlines : Text.lines t = pre ++ l :: post) (hpre : ∀ k ∈ pre, Line.isDefinition k = false)
    (hdef : Line.isDefinition l = true) :
    linesOf (extract (merge cs t)) .header =
        linesOf cs .header ++ ((Merging.start.after cs pre).sitesAt l).flatMap (linesOn cs) ∧
      linesOf (extract (merge cs t)) .footer = linesOf cs .footer ∧
      ∀ x : Site, x.kind = .table ∨ x.kind = .field → linesOn (extract (merge cs t)) x =
        (((((Merging.start.after cs pre).next cs l).sites post)).filter (· = x)).flatMap
          (linesOn cs) := by
  have hzl : Line.AtZero Line.IsTableHeader (Merging.start.after cs pre).scan.depth
      (l :: post) := Merging.atZero_after cs (hlines ▸ hz)
  have habove : (Merging.start.after cs pre).above cs l =
      ((Merging.start.after cs pre).sitesAt l).flatMap (linesOn cs) :=
    Merging.above_eq_sites hzl.head
  have hzpost := Merging.atZero_next cs hzl
  have hnl : ∀ r ∈ linesOf cs .header ++
      ((Merging.start.after cs pre).sitesAt l).flatMap (linesOn cs), '\n' ∉ r := by
    intro r hr
    rcases List.mem_append.1 hr with hr | hr
    · exact newline_not_mem_linesOf hr
    · obtain ⟨x, -, hr⟩ := List.mem_flatMap.1 hr
      exact newline_not_mem_linesOn hr
  -- The records are the header, what is recorded at the other lines, and the footer.
  rw [extract_merge_of_definition hcs ht hz hbal hlines hpre hdef, habove]
  refine ⟨?_, ?_, fun x hx => ?_⟩
  · rw [linesOf_append, linesOf_append,
      linesOf_grouped .header .header (fun _ => rfl) (fun _ => rfl) hnl,
      Merging.linesOf_records (.inl rfl),
      linesOf_grouped_of_ne .footer .header fun _ => nofun, List.append_nil, List.append_nil]
  · rw [linesOf_append, linesOf_append,
      linesOf_grouped .footer .footer (fun _ => rfl) (fun _ => rfl)
        fun r hr => newline_not_mem_linesOf hr,
      Merging.linesOf_records (.inr rfl),
      linesOf_grouped_of_ne .header .footer fun _ => nofun]
    rfl
  · rw [linesOn_append, linesOn_append, linesOn_grouped_of_anchor_none .header fun _ => rfl,
      linesOn_grouped_of_anchor_none .footer fun _ => rfl, Merging.linesOn_records hzpost,
      List.nil_append, List.append_nil]
    rcases hx with hx | hx <;> rw [hx] <;> decide

omit hz in
/-- The lines that are read, if there is no definition. -/
theorem lines_extract_merge_of_undefined (hdef : ∀ l ∈ Text.lines t, Line.isDefinition l = false) :
    linesOf (extract (merge cs t)) .header = linesOf cs .header ++ linesOf cs .footer ∧
      linesOf (extract (merge cs t)) .footer = [] ∧
      ∀ x : Site, linesOn (extract (merge cs t)) x = [] := by
  rw [extract_merge_of_undefined hcs ht hbal hdef]
  refine ⟨?_, ?_, fun x => ?_⟩
  · refine linesOf_grouped .header .header (fun _ => rfl) (fun _ => rfl) fun r hr => ?_
    rcases List.mem_append.1 hr with hr | hr <;> exact newline_not_mem_linesOf hr
  · exact linesOf_grouped_of_ne .header .footer (fun _ => nofun) _
  · exact linesOn_grouped_of_anchor_none .header (fun _ => rfl) _ x

/-- The comments of a merged text are plain, and those at the ends of lines were put there. -/
theorem of_mem_extract_merge {c : Comment} (hc : c ∈ extract (merge cs t)) :
    c.IsPlain ∧ (c.kind = .inline →
      ∃ t f, c.anchor = ⟨some t, some f⟩ ∧ (inlineText? cs t f).isSome) := by
  have hof : ∀ {k : CommentKind}, ∀ r ∈ linesOf cs k, Line.IsRemark r :=
    fun r hr => isRemark_of_mem_linesOf hcs hr
  have hgrouped : ∀ (record : Text → Comment) (ls : List Line), (∀ t, (record t).text = t) →
      (∀ t, (record t).kind ≠ .field ∧ (record t).kind ≠ .inline) →
      (∀ l ∈ ls, Line.IsRemark l ∧ '\n' ∉ l) → c ∈ grouped record ls →
      c.IsPlain ∧ (c.kind = .inline →
        ∃ t f, c.anchor = ⟨some t, some f⟩ ∧ (inlineText? cs t f).isSome) := by
    intro record ls htext hkind hls hc
    -- The records before the first definition are grouped to the header, those at the end to the
    -- footer.
    refine ⟨isPlain_grouped record htext hkind (fun l hl => (hls l hl).1)
      (fun l hl => (hls l hl).2) hc, ?_⟩
    exact fun h => absurd h (mem_grouped hc ▸ (hkind _).2)
  by_cases hdef : ∃ l ∈ Text.lines t, Line.isDefinition l = true
  · obtain ⟨pre, l, post, hlines, hpre, hl⟩ := exists_first_definition hdef
    rw [extract_merge_of_definition hcs ht hz hbal hlines hpre hl] at hc
    rcases List.mem_append.1 hc with hc | hc
    · rcases List.mem_append.1 hc with hc | hc
      · refine hgrouped .header _ (fun _ => rfl) (fun _ => ⟨nofun, nofun⟩) (fun r hr => ?_) hc
        rcases List.mem_append.1 hr with hr | hr
        · exact ⟨hof r hr, newline_not_mem_linesOf hr⟩
        · exact ⟨Merging.isRemark_of_mem_above hcs hr, Text.newline_not_mem_flatMap hr⟩
      · obtain ⟨pre', k, post', hpost, hc⟩ := Merging.exists_of_mem_records hc
        have hk : k ∈ Text.lines t := by
          rw [hlines, hpost]
          simp
        exact Merging.of_mem_recordsAt hcs (ht k hk) (Text.newline_not_mem hk) hc
    · exact hgrouped .footer _ (fun _ => rfl) (fun _ => ⟨nofun, nofun⟩)
        (fun r hr => ⟨hof r hr, newline_not_mem_linesOf hr⟩) hc
  · have hundef : ∀ l ∈ Text.lines t, Line.isDefinition l = false := fun l hl =>
      Bool.eq_false_iff.2 fun h => hdef ⟨l, hl, h⟩
    rw [extract_merge_of_undefined hcs ht hbal hundef] at hc
    refine hgrouped .header _ (fun _ => rfl) (fun _ => ⟨nofun, nofun⟩) (fun r hr => ?_) hc
    rcases List.mem_append.1 hr with hr | hr <;> exact ⟨hof r hr, newline_not_mem_linesOf hr⟩

/-- What is read from a merged text is plain. -/
theorem isPlain_of_mem_extract_merge : ∀ c ∈ extract (merge cs t), c.IsPlain :=
  fun _ hc => (of_mem_extract_merge hcs ht hz hbal hc).1

/-- If the header is read as it was, so is the footer, and each site has what was put there
    as often as it is met. -/
theorem linesOn_extract_merge
    (hsettled : linesOf (extract (merge cs t)) .header = linesOf cs .header) :
    linesOf (extract (merge cs t)) .footer = linesOf cs .footer ∧
      ∀ x : Site, x.kind = .table ∨ x.kind = .field → linesOn (extract (merge cs t)) x =
        ((Merging.start.sites (Text.lines t)).filter (· = x)).flatMap (linesOn cs) := by
  by_cases hdef : ∃ l ∈ Text.lines t, Line.isDefinition l = true
  · obtain ⟨pre, l, post, hlines, hpre, hl⟩ := exists_first_definition hdef
    obtain ⟨hheader, hfooter, hsites⟩ :=
      lines_extract_merge_of_definition hcs ht hz hbal hlines hpre hl
    rw [hheader, List.append_right_eq_self] at hsettled
    refine ⟨hfooter, fun x hx => ?_⟩
    -- The sites before the first definition, and the one at it, have no comments.
    have hnone :
        (((Merging.start.after cs pre).sitesAt l).filter (· = x)).flatMap (linesOn cs) = [] :=
      List.flatMap_eq_nil_iff.2 fun y hy =>
        List.flatMap_eq_nil_iff.1 hsettled y (List.mem_of_mem_filter hy)
    rw [hsites x hx, hlines, Merging.sites_append cs, Merging.sites_cons cs,
      (Merging.sites_of_undefined cs hpre rfl).1, List.nil_append, List.filter_append,
      List.flatMap_append, hnone, List.nil_append]
  · have hundef : ∀ l ∈ Text.lines t, Line.isDefinition l = false := fun l hl =>
      Bool.eq_false_iff.2 fun h => hdef ⟨l, hl, h⟩
    obtain ⟨hheader, hfooter, hsites⟩ := lines_extract_merge_of_undefined hcs ht hbal hundef
    rw [hheader, List.append_right_eq_self] at hsettled
    refine ⟨hfooter.trans hsettled.symm, fun x _ => ?_⟩
    rw [hsites x, (Merging.sites_of_undefined cs hundef rfl).1]
    rfl

end

end Comment

end DbmlRestore
