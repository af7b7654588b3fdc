import DbmlRestore.Proofs.Comment.SourceOrder
import DbmlRestore.Proofs.Snapshot.Stored

/-!
# What extracted records look like

A record is made at a place of the text, and it is the place that gives it its names: the header of
a table, or the header of the current table. So the names are never missing where the kind of the
record asks for them, and never empty (`Comment.IsShaped`). What is recorded at the end of the text
is the only footer, and the only record at all in a text without definitions
(`Comment.isShaped_extract`).

The anchors of a captured snapshot therefore go with their kinds, and its wire form is accepted when
it is read back.
-/

namespace DbmlRestore

namespace Line

variable {ls : List Line} {i : Nat} {table : Text}

/-- A table that is current has a name. -/
theorem ne_nil_of_tableAt? (h : tableAt? ls i = some table) : table ≠ [] := by
  obtain ⟨k, -, h⟩ := Option.bind_eq_some_iff.1 h
  obtain ⟨l, -, h⟩ := Option.bind_eq_some_iff.1 h
  obtain ⟨header, hheader, rfl⟩ := Option.map_eq_some_iff.1 h
  exact (ne_nil_of_tableHeader? hheader).1

/-- Where no line is a definition, there is no table. -/
theorem current?_eq_none_of_undefined (hdef : ∀ l ∈ ls, isDefinition l = false) :
    current? ls i = none := by
  refine Option.eq_none_iff_forall_ne_some.2 fun k hk => ?_
  obtain ⟨l, hl, hheader⟩ := isTableHeader_of_current? hk
  have hnone := (isDefinition_eq_false_iff.1 (hdef l (List.mem_of_getElem? hl))).1
  rw [IsTableHeader, hnone] at hheader
  exact Bool.noConfusion hheader

/-- Without a definition there is none that takes the comments above it. -/
theorem not_takesComments_of_undefined (hdef : ∀ l ∈ ls, isDefinition l = false) :
    ¬ TakesComments ls i := fun htakes => by
  obtain ⟨l, hl, -⟩ := id htakes
  exact Bool.noConfusion ((hdef l (List.mem_of_getElem? hl)).symm.trans (htakes.isDefinition hl))

end Line

namespace Comment

open CommentUnit (firsts)

/-- A comment with the anchor that its kind asks for: the names in it are not empty, and that of a
    field holds no quote. At the end of a line the comment starts with its mark and is one line; any
    other one starts with a line that is a comment, or opens one. -/
structure IsShaped (c : Comment) : Prop where
  anchor : AnchorRule c.kind c.anchor
  table : ∀ table ∈ c.anchor.table, table ≠ []
  field : ∀ field ∈ c.anchor.field, field ≠ [] ∧ '"' ∉ field
  ending : c.kind = .inline → Line.commentMark <+: c.text ∧ '\n' ∉ c.text
  standing : c.kind ≠ .inline → ∃ l ∈ (Text.lines c.text).head?,
    Line.isComment (Text.trim l) = true ∨ Line.opensComment (Text.trim l) = true

variable {us : List CommentUnit} {p : Nat} {c : Comment} {t : Text}

/-! ## One place -/

/-- A record is one of the schema's header; one of its footer, at the end; that of the table whose
    header stands at the place; or one in the body of the table that is current there. -/
theorem cases_of_recordAt (hp : p ≤ us.length) (hrecorded : recorded us p ≠ []) (text : Text) :
    recordAt (firsts us) p text = .header text ∨
      (p = us.length ∧ recordAt (firsts us) p text = .footer text) ∨
      ∃ table, table ≠ [] ∧ (recordAt (firsts us) p text = .onTable text (some table) ∨
        recordAt (firsts us) p text = .inBody text (some table)) := by
  rcases Nat.lt_or_eq_of_le hp with hp | rfl
  · have hu : us[p]? = some us[p] := List.getElem?_eq_getElem hp
    have hl := CommentUnit.getElem?_firsts hu
    rw [recordAt, hl]
    dsimp only
    cases ht : Line.tableHeader? (Text.trim us[p].first) with
    | some h =>
      dsimp only
      split
      · exact .inr (.inr ⟨h.table, (Line.ne_nil_of_tableHeader? ht).1, .inl rfl⟩)
      · exact .inl rfl
    | none =>
      cases he : Line.isEnumHeader (Text.trim us[p].first) with
      | true => exact .inl rfl
      | false =>
        -- A line that is no definition takes no comments, so the record is one in a body.
        have htakes : ¬ Line.TakesComments (firsts us) p := fun htakes => by
          have hdef := Line.isDefinition_eq_false_iff.2 ⟨ht, he⟩
          exact Bool.noConfusion (hdef.symm.trans (htakes.isDefinition hl))
        have hbody : Line.IsInBody (firsts us) p := by
          by_contra hbody
          rw [recorded_of_getElem? hu, if_neg htakes, if_neg fun h => hbody h.2] at hrecorded
          exact hrecorded rfl
        obtain ⟨table, htable⟩ := Option.isSome_iff_exists.1 (Line.isSome_tableAt?.trans hbody.1)
        rw [htable]
        exact .inr (.inr ⟨table, Line.ne_nil_of_tableAt? htable, .inr rfl⟩)
  · rw [recordAt_length]
    split
    · exact .inr (.inl ⟨rfl, rfl⟩)
    · exact .inl rfl

/-- A record that is made of comments has no field, and its table has a name if it has one. -/
theorem anchor_of_recordAt (hp : p ≤ us.length) (hrecorded : recorded us p ≠ []) (text : Text) :
    AnchorRule (recordAt (firsts us) p text).kind (recordAt (firsts us) p text).anchor ∧
      (recordAt (firsts us) p text).anchor.table ≠ some [] ∧
      (recordAt (firsts us) p text).anchor.field = none := by
  rcases cases_of_recordAt hp hrecorded text with h | ⟨-, h⟩ | ⟨table, hne, h | h⟩
  · rw [h]
    exact ⟨rfl, nofun, rfl⟩
  · rw [h]
    exact ⟨rfl, nofun, rfl⟩
  · rw [h]
    exact ⟨⟨rfl, rfl⟩, fun htable => hne (Option.some.inj htable), rfl⟩
  · rw [h]
    exact ⟨⟨rfl, rfl⟩, fun htable => hne (Option.some.inj htable), rfl⟩

/-- A comment at the end of a line has the shape of its kind. -/
theorem isShaped_of_endingAt? (hending : endingAt? us p = some c) : c.IsShaped := by
  obtain ⟨u, -, -, table, code, comment, field, htable, hcut, hfield, rfl⟩ :=
    of_mem_endingAt? hending
  obtain ⟨_, -, hne, hquote⟩ := Line.fieldName?_eq_some_iff.1 hfield
  refine ⟨⟨rfl, rfl⟩, ?_, ?_, fun _ => (Line.of_inlineComment? hcut).2, fun hkind => absurd rfl hkind⟩
  · rintro _ ⟨⟩
    exact Line.ne_nil_of_tableAt? htable
  · rintro _ ⟨⟩
    exact ⟨hne, hquote⟩

/-- Each comment that is recorded at a place has the shape of its kind. -/
theorem isShaped_of_mem_recordsAt (hus : ∀ u ∈ us, u.IsFormed) (hp : p ≤ us.length)
    (hc : c ∈ recordsAt us p) : c.IsShaped := by
  rcases cases_of_mem_recordsAt hc with ⟨x, xs, hrecorded, rfl⟩ | hending
  · have hne : recorded us p ≠ [] := hrecorded ▸ List.cons_ne_nil x xs
    obtain ⟨hrule, htable, hfield⟩ := anchor_of_recordAt hp hne (Text.unlines (texts (recorded us p)))
    have hother := (of_recordAt (firsts us) p (Text.unlines (texts (recorded us p)))).2
    -- The first line is that of a unit which is a comment.
    obtain ⟨-, hcomment, -⟩ := of_mem_recorded (hrecorded ▸ List.mem_cons_self : x ∈ recorded us p)
    refine ⟨hrule, ?_, ?_, fun hkind => absurd hkind hother, fun _ => ?_⟩
    · rintro table htable' rfl
      exact htable htable'
    · rw [hfield]
      exact nofun
    · exact ⟨x.1.first, head?_lines_of_recorded hus hrecorded, hcomment⟩
  · exact isShaped_of_endingAt? hending

/-- A footer is recorded at the end only. -/
theorem eq_length_of_kind_eq_footer (hp : p ≤ us.length) (hc : c ∈ recordsAt us p)
    (hkind : c.kind = .footer) : p = us.length := by
  rcases cases_of_mem_recordsAt hc with ⟨x, xs, hrecorded, rfl⟩ | hending
  · have hne : recorded us p ≠ [] := hrecorded ▸ List.cons_ne_nil x xs
    rcases cases_of_recordAt hp hne (Text.unlines (texts (recorded us p))) with
      h | ⟨hlength, -⟩ | ⟨table, -, h | h⟩
    · exact nomatch h ▸ hkind
    · exact hlength
    · exact nomatch h ▸ hkind
    · exact nomatch h ▸ hkind
  · obtain ⟨_, -, -, _, _, _, _, -, -, -, rfl⟩ := of_mem_endingAt? hending
    exact nomatch hkind

/-- Without definitions everything waits for the end, and becomes the header of the schema. -/
theorem recordsAt_of_undefined (hdef : ∀ l ∈ firsts us, Line.isDefinition l = false)
    (hp : p < us.length) : recordsAt us p = [] := by
  have hcurrent : Line.current? (firsts us) p = none := Line.current?_eq_none_of_undefined hdef
  have hrecorded : recorded us p = [] := by
    have hbody : ¬ Line.IsInBody (firsts us) p := fun hbody => by
      rw [Line.IsInBody, hcurrent] at hbody
      exact Bool.noConfusion hbody.1
    rw [recorded_of_getElem? (List.getElem?_eq_getElem hp),
      if_neg (Line.not_takesComments_of_undefined hdef), if_neg fun h => hbody h.2]
    rfl
  have hending : endingAt? us p = none := by
    refine Option.eq_none_iff_forall_ne_some.2 fun c hc => ?_
    obtain ⟨_, -, -, table, _, _, _, htable, -⟩ := of_mem_endingAt? hc
    have hsome : (Line.tableAt? (firsts us) p).isSome = false := by
      rw [Line.isSome_tableAt?, hcurrent]
      rfl
    rw [htable] at hsome
    exact Bool.noConfusion hsome
  rw [recordsAt, hrecorded, hending]
  rfl

/-! ## The records of a text -/

theorem mem_lines_of_mem_firsts {l : Line} (hl : l ∈ firsts (CommentUnit.ofLines (Text.lines t))) :
    l ∈ Text.lines t := by
  obtain ⟨u, hu, rfl⟩ := List.mem_map.1 hl
  rw [← CommentUnit.flatMap_lines_ofLines (Text.lines t)]
  exact List.mem_flatMap.2 ⟨u, hu, List.mem_cons_self⟩

/-- A footer is the last record. -/
theorem succ_eq_length_of_kind_eq_footer {i : Nat} (hc : (extract t)[i]? = some c)
    (hkind : c.kind = .footer) : i + 1 = (extract t).length := by
  rw [extract_eq_flatMap_recordsAt] at hc ⊢
  generalize CommentUnit.ofLines (Text.lines t) = us at hc ⊢
  rw [List.range_succ, List.flatMap_append, List.flatMap_singleton] at hc ⊢
  have hlength : (recordsAt us us.length).length ≤ 1 := recordsAt_length_le
  obtain ⟨hi, -⟩ := List.getElem?_eq_some_iff.1 hc
  rw [List.length_append] at hi ⊢
  have hlast : ((List.range us.length).flatMap (recordsAt us)).length ≤ i := by
    by_contra hlt
    rw [List.getElem?_append_left (Nat.lt_of_not_le hlt)] at hc
    obtain ⟨p, hp, hmem⟩ := List.mem_flatMap.1 (List.mem_of_getElem? hc)
    have hp := List.mem_range.1 hp
    exact Nat.ne_of_lt hp (eq_length_of_kind_eq_footer (Nat.le_of_lt hp) hmem hkind)
  omega

/-- Without definitions there is at most a header. -/
theorem extract_of_undefined (hdef : ∀ l ∈ Text.lines t, Line.isDefinition l = false) :
    extract t = [] ∨ ∃ text, extract t = [.header text] := by
  have hfirsts : ∀ l ∈ firsts (CommentUnit.ofLines (Text.lines t)), Line.isDefinition l = false :=
    fun l hl => hdef l (mem_lines_of_mem_firsts hl)
  rw [extract_eq_flatMap_recordsAt]
  generalize CommentUnit.ofLines (Text.lines t) = us at hfirsts
  have hbefore : (List.range us.length).flatMap (recordsAt us) = [] :=
    List.flatMap_eq_nil_iff.2 fun p hp => recordsAt_of_undefined hfirsts (List.mem_range.1 hp)
  have hany : ¬ (firsts us).any Line.isDefinition = true := by
    rw [List.any_eq_true]
    rintro ⟨l, hl, htrue⟩
    exact Bool.noConfusion ((hfirsts l hl).symm.trans htrue)
  rw [List.range_succ, List.flatMap_append, List.flatMap_singleton, hbefore, List.nil_append,
    recordsAt, endingAt?_length, Option.toList_none, List.append_nil, grouped]
  split
  · exact .inl rfl
  · rw [recordAt_length, if_neg hany]
    exact .inr ⟨_, rfl⟩

/-- Each record has the form of its kind; a footer is the last record, so that there is one at
    most; and a text without definitions has no record, or a single one of the schema's header.
    Read as JSON, the captured snapshot passes all checks. -/
theorem isShaped_extract (t : Text) :
    (∀ c ∈ extract t, c.IsShaped) ∧
      (∀ i c, (extract t)[i]? = some c → c.kind = .footer → i + 1 = (extract t).length) ∧
      ((∀ l ∈ Text.lines t, Line.isDefinition l = false) →
        extract t = [] ∨ ∃ text, extract t = [.header text]) ∧
      Snapshot.ofJson ((Snapshot.capture t).map .text).toJson =
        .ok ((Snapshot.capture t).map .text) := by
  have hshaped : ∀ c ∈ extract t, c.IsShaped := by
    intro c hc
    rw [extract_eq_flatMap_recordsAt] at hc
    obtain ⟨p, hp, hc⟩ := List.mem_flatMap.1 hc
    exact isShaped_of_mem_recordsAt (fun _ => CommentUnit.isFormed_of_mem_ofLines)
      (Nat.le_of_lt_succ (List.mem_range.1 hp)) hc
  refine ⟨hshaped, fun i c => succ_eq_length_of_kind_eq_footer, extract_of_undefined, ?_⟩
  exact Snapshot.ofJson_toJson_texts fun c hc => (hshaped c hc).anchor

end Comment

end DbmlRestore
