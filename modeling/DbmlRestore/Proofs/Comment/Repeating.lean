import DbmlRestore.Proofs.Comment.Settled

/-!
# Merging what was read

Comments are merged into a text, read again, and merged once more: not into the text with
all of the comments, but into the text with the comments at the ends of its lines
(`Comment.endings`), as no other comment is left when a text is laid out again. This gives
the merged text back (`Comment.merge_extract_merge`) if the header of the schema is read as it
was, and if each site of the text has as many comments as were put there.
-/

namespace DbmlRestore

namespace Comment

variable {cs cs' : List Comment} {t : Text}

/-- The comments at the ends of lines. -/
def endings (cs : List Comment) : List Comment := cs.filter (·.kind = .inline)

/-- The comment for the end of a line is the same if there are no others. -/
theorem inlineText?_endings (cs : List Comment) (table field : Text) :
    inlineText? (endings cs) table field = inlineText? cs table field := by
  rw [inlineText?, endings, List.filter_filter, inlineText?]
  refine congrArg (fun ds => (List.getLast? ds).map Comment.text) (List.filter_congr fun c _ => ?_)
  rw [← Bool.decide_and]
  exact decide_eq_decide.2 ⟨And.left, fun h => ⟨h, h.1⟩⟩

/-- The comments at the ends of lines are of no other kind. -/
theorem linesOf_endings {k : CommentKind} (hk : k ≠ .inline) : linesOf (endings cs) k = [] :=
  linesOf_eq_nil_of_forall fun _ hc hck =>
    hk (hck.symm.trans (of_decide_eq_true (List.mem_filter.1 hc).2))

theorem linesOn_endings {x : Site} (hx : x.kind ≠ .inline) : linesOn (endings cs) x = [] :=
  linesOn_eq_nil_of_forall fun _ hc hcx =>
    hx (hcx.1.symm.trans (of_decide_eq_true (List.mem_filter.1 hc).2))

/-- The comments at the ends of lines are plain if all comments are. -/
theorem isPlain_of_mem_endings (hcs : ∀ c ∈ cs, c.IsPlain) : ∀ c ∈ endings cs, c.IsPlain :=
  fun c hc => hcs c (List.mem_filter.1 hc).1

theorem top_eq (cs : List Comment) :
    top cs = if linesOf cs .header = [] then [] else linesOf cs .header ++ [[]] := by
  rw [top]
  cases h : textsOf cs .header with
  | nil => rw [linesOf, h]; rfl
  | cons p ps =>
    have hne : linesOf cs .header ≠ [] := by
      rw [linesOf, h]
      exact Text.flatMap_lines_ne_nil (List.cons_ne_nil p ps)
    rw [if_neg (List.cons_ne_nil p ps), if_neg hne]

theorem bottom_eq (cs : List Comment) :
    bottom cs = if linesOf cs .footer = [] then [] else [] :: linesOf cs .footer := by
  rw [bottom]
  cases h : textsOf cs .footer with
  | nil => rw [linesOf, h]; rfl
  | cons p ps =>
    have hne : linesOf cs .footer ≠ [] := by
      rw [linesOf, h]
      exact Text.flatMap_lines_ne_nil (List.cons_ne_nil p ps)
    rw [if_neg (List.cons_ne_nil p ps), if_neg hne]

end Comment

namespace Merging

variable {m m' : Merging} {cs cs' : List Comment} {l : Line} {ls : List Line}

/-- Only comments above a table and inside of one have sites. -/
theorem kind_of_mem_sitesAt {x : Site} (hx : x ∈ m.sitesAt l) :
    x.kind = .table ∨ x.kind = .field := by
  rw [sitesAt] at hx
  split at hx
  · rw [List.mem_singleton.1 hx]
    exact .inl rfl
  · split at hx
    · split at hx
      · exact absurd hx List.not_mem_nil
      · rw [List.mem_singleton.1 hx]
        exact .inr rfl
    · exact absurd hx List.not_mem_nil

/-- So it is for all the lines of a text. -/
theorem kind_of_mem_sites {x : Site} (hx : x ∈ m.sites ls) : x.kind = .table ∨ x.kind = .field := by
  induction ls generalizing m with
  | nil => exact absurd hx List.not_mem_nil
  | cons l ls ih =>
    rcases List.mem_append.1 hx with hx | hx
    · exact kind_of_mem_sitesAt hx
    · exact ih hx

/-- A line that has taken its comment takes no other one, and a line without a comment takes
    none if there are no new keys. -/
theorem kept_kept (hcs : ∀ c ∈ cs, c.IsPlain)
    (hkey : ∀ t f, (Comment.inlineText? cs' t f).isSome → (Comment.inlineText? cs t f).isSome)
    (hm : m.scan.Alike m'.scan) (hl : Line.IsBare l) :
    m'.kept cs' (m.kept cs l) = m.kept cs l := by
  have hd : Line.Dressed l (m.kept cs l) := kept_dressed hcs
  have hsee : (m'.scan.see (m.kept cs l)).table? = (m.scan.see l).table? := by
    rw [TableScan.see, TableScan.see, hd.continues.tableHeader?_eq]
    cases Line.tableHeader? (Text.trim l) with
    | none => exact hm.table.symm
    | some h => rfl
  rw [kept_eq (m := m'), hsee, hd.continues.fieldName?_eq]
  cases hs : (m.scan.see l).table? with
  | none => rfl
  | some t =>
    cases hf : Line.fieldName? (Text.trim l) with
    | none => rfl
    | some f =>
      dsimp only
      split
      · rfl
      · next hmark =>
        cases hc' : Comment.inlineText? cs' t f with
        | none => rfl
        | some c' =>
          exfalso
          -- The first comments have one for the field as well, and it would have been put in.
          obtain ⟨c, hc⟩ := Option.isSome_iff_exists.1 (hkey t f (by rw [hc']; rfl))
          refine hmark ?_
          rw [kept_eq, hs, hf]
          show Text.holds _ (if Text.holds Line.commentMark l = true then _ else _) = true
          rw [hl.noMark, if_neg Bool.false_ne_true, hc]
          obtain ⟨d, hd, hk, -, rfl⟩ := Comment.exists_of_inlineText?_eq_some hc
          exact Line.holds_withComment ((hcs d hd).inline hk).1.isInfix

/-- Merging again what was read gives every line what it had. -/
theorem lines_dressings_dressings (hcs : ∀ c ∈ cs, c.IsPlain)
    (hkey : ∀ t f, (Comment.inlineText? cs' t f).isSome → (Comment.inlineText? cs t f).isSome)
    (hls : ∀ l ∈ ls, Line.IsBare l)
    (hz : Line.AtZero Line.IsTableHeader m.scan.depth ls)
    (hsites : ∀ x ∈ m.sites ls, Comment.linesOn cs' x = Comment.linesOn cs x) (hm : Alike m m') :
    (m'.dressings cs' ((m.dressings cs ls).map (·.dressed))).flatMap Dressing.lines =
      (m.dressings cs ls).flatMap Dressing.lines := by
  induction ls generalizing m m' with
  | nil => rfl
  | cons l ls ih =>
    have hd : Line.Dressed l (m.kept cs l) := kept_dressed hcs
    have hz' := atZero_next cs hz
    rw [sites_cons cs] at hsites
    -- At the same sites, the same comments are put in.
    have habove : m'.above cs' (m.kept cs l) = m.above cs l := by
      rw [above_eq_sites hz.head, above_eq_sites, hm.sitesAt_eq hd]
      · exact List.flatMap_congr fun x hx => hsites x (List.mem_append_left _ hx)
      · rw [hd.continues.tableHeader?_eq, ← hm.scan.depth]
        exact hz.head
    rw [dressings, List.map_cons, dressings, List.flatMap_cons, List.flatMap_cons,
      ih (fun k hk => hls k (List.mem_cons_of_mem l hk)) hz'
        (fun x hx => hsites x (List.mem_append_right _ hx)) (hm.next hd cs cs'),
      Dressing.lines, Dressing.lines, habove,
      kept_kept hcs hkey hm.scan (hls l List.mem_cons_self)]

/-- The lines with the comments at their ends only. -/
theorem lines_dressings_endings
    (hz : Line.AtZero Line.IsTableHeader m.scan.depth ls) :
    (m.dressings (Comment.endings cs) ls).flatMap Dressing.lines =
      (m.dressings cs ls).map (·.dressed) := by
  induction ls generalizing m with
  | nil => rfl
  | cons l ls ih =>
    have hz' := atZero_next cs hz
    have habove : m.above (Comment.endings cs) l = [] := by
      rw [above_eq_sites hz.head]
      refine List.flatMap_eq_nil_iff.2 fun x hx => Comment.linesOn_endings ?_
      rcases kind_of_mem_sitesAt hx with h | h <;> rw [h] <;> decide
    have hkept : m.kept (Comment.endings cs) l = m.kept cs l := by
      simp only [kept_eq, Comment.inlineText?_endings]
    rw [dressings, List.flatMap_cons, Dressing.lines, habove, hkept, next_congr _ cs l, ih hz',
      dressings, List.map_cons]
    rfl

end Merging

namespace Comment

variable {cs : List Comment} {t : Text}

/-- Merging only the comments at the ends of lines keeps the number of lines, and each at its place.
    -/
theorem lines_merge_endings (hcs : ∀ c ∈ cs, c.IsPlain)
    (hz : Line.AtZero Line.IsTableHeader 0 (Text.lines t)) :
    Text.lines (merge (endings cs) t) =
      (Merging.start.dressings cs (Text.lines t)).map (·.dressed) := by
  rw [lines_merge (isPlain_of_mem_endings hcs), top_eq, bottom_eq, linesOf_endings (by decide),
    linesOf_endings (by decide), if_pos rfl, if_pos rfl, List.nil_append, List.append_nil,
    Merging.lines_dressings_endings hz]

/-- A comment for a field that is read again was put there. -/
theorem inlineText?_extract_merge (hcs : ∀ c ∈ cs, c.IsPlain)
    (ht : ∀ l ∈ Text.lines t, Line.IsBare l)
    (hz : Line.AtZero Line.IsTableHeader 0 (Text.lines t))
    (hbal : Line.depthOf (Text.lines t) = 0) (table field : Text)
    (h : (inlineText? (extract (merge cs t)) table field).isSome) :
    (inlineText? cs table field).isSome := by
  obtain ⟨c, hc⟩ := Option.isSome_iff_exists.1 h
  obtain ⟨d, hd, hk, hkey, -⟩ := exists_of_inlineText?_eq_some hc
  obtain ⟨-, hend⟩ := of_mem_extract_merge hcs ht hz hbal hd
  obtain ⟨table', field', hanchor, hsome⟩ := hend hk
  rw [hanchor] at hkey
  have heq : Anchor.key table' field' = Anchor.key table field := Option.some.inj hkey
  rwa [inlineText?, heq, ← inlineText?] at hsome

/-- Merging again what was read gives the merged text back. -/
theorem merge_extract_merge (hcs : ∀ c ∈ cs, c.IsPlain) (ht : ∀ l ∈ Text.lines t, Line.IsBare l)
    (hz : Line.AtZero Line.IsTableHeader 0 (Text.lines t))
    (hbal : Line.depthOf (Text.lines t) = 0)
    (hsettled : linesOf (extract (merge cs t)) .header = linesOf cs .header)
    (hsites : ∀ x ∈ Merging.start.sites (Text.lines t),
      linesOn (extract (merge cs t)) x = linesOn cs x) :
    merge (extract (merge cs t)) (merge (endings cs) t) = merge cs t := by
  have hplain := isPlain_of_mem_extract_merge hcs ht hz hbal
  obtain ⟨hfooter, -⟩ := linesOn_extract_merge hcs ht hz hbal hsettled
  rw [← Text.lines_inj, lines_merge hplain, lines_merge hcs, top_eq, top_eq, bottom_eq, bottom_eq,
    hsettled, hfooter, lines_merge_endings hcs hz,
    Merging.lines_dressings_dressings hcs (inlineText?_extract_merge hcs ht hz hbal) ht hz hsites
      (Merging.Alike.refl .start)]

end Comment

end DbmlRestore
