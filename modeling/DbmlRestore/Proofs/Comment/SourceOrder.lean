import DbmlRestore.Proofs.Comment.Recording

/-!
# The order of the records

The record of a comment is made where the comment is recorded, which may be after the place where it
stands. So the records need not come in the order in which their comments begin: in a table, before
a brace is open, a comment waits for the end of the table and beyond, and is overtaken by the
comments that stand in the body or end a line (`Comment.Overtakes`). There is no other way to get
ahead of a comment (`Comment.pairwise_located_iff`).

`Comment.located` are the records with the lines where they begin.
-/

namespace DbmlRestore

/-! ## Lines of units -/

namespace CommentUnit

/-- The line on which unit `i` starts. -/
def startLine (us : List CommentUnit) (i : Nat) : Nat := ((us.take i).flatMap lines).length

variable {us : List CommentUnit} {u : CommentUnit} {i j : Nat}

/-- The line where a unit starts is the first line of the unit. -/
theorem getElem?_startLine (hu : us[i]? = some u) :
    (us.flatMap lines)[startLine us i]? = some u.first := by
  obtain ⟨hi, rfl⟩ := List.getElem?_eq_some_iff.1 hu
  have hsplit : us.flatMap lines = (us.take i).flatMap lines ++
      us[i].first :: (us[i].more ++ (us.drop (i + 1)).flatMap lines) := by
    conv_lhs => rw [← List.take_append_drop i us, List.drop_eq_getElem_cons hi]
    rw [List.flatMap_append, List.flatMap_cons]
    rfl
  rw [hsplit, startLine, List.getElem?_append_right (Nat.le_refl _), Nat.sub_self,
    List.getElem?_cons_zero]

/-- Each unit has a line at least. -/
theorem startLine_lt_succ (hi : i < us.length) : startLine us i < startLine us (i + 1) := by
  rw [startLine, startLine, List.take_succ_eq_append_getElem hi, List.flatMap_append,
    List.length_append, List.flatMap_singleton]
  exact Nat.lt_add_of_pos_right (Nat.succ_pos _)

/-- Later units start on later lines. -/
theorem startLine_lt (hij : i < j) (hj : j ≤ us.length) : startLine us i < startLine us j := by
  induction j, hij using Nat.le_induction with
  | base => exact startLine_lt_succ hj
  | succ j _ ih => exact (ih (Nat.le_of_succ_le hj)).trans (startLine_lt_succ hj)

/-- Units start in the order in which they stand. -/
theorem startLine_lt_iff (hi : i ≤ us.length) (hj : j ≤ us.length) :
    startLine us i < startLine us j ↔ i < j := by
  refine ⟨fun hlt => ?_, fun hij => startLine_lt hij hj⟩
  by_contra hle
  rcases Nat.lt_or_eq_of_le (Nat.le_of_not_lt hle) with hji | rfl
  · exact Nat.lt_asymm hlt (startLine_lt hji hi)
  · exact Nat.lt_irrefl _ hlt

end CommentUnit

/-! ## Where records begin -/

namespace Comment

open CommentUnit (firsts startLine)

/-- The unit with which the record of place `p` begins. -/
def beginsAt (us : List CommentUnit) (p : Nat) : Nat := (recorded us p).head?.elim p (·.2)

/-- The records, each with the line where it begins. -/
def located (us : List CommentUnit) : List (Nat × Comment) :=
  (List.range (us.length + 1)).flatMap fun p =>
    (recordsAt us p).map (startLine us (beginsAt us p), ·)

/-- The comment begins with line `n`, or at the end of this line. -/
def BeginsOn (ls : List Line) (n : Nat) (c : Comment) : Prop :=
  ∃ l ∈ ls[n]?, ∃ first ∈ (Text.lines c.text).head?,
    if c.kind = .inline then first <:+ l else first = l

instance (ls : List Line) (n : Nat) (c : Comment) : Decidable (BeginsOn ls n c) :=
  inferInstanceAs (Decidable (∃ l ∈ ls[n]?, ∃ first ∈ (Text.lines c.text).head?, ite _ _ _))

/-- The comment of unit `p` is recorded when the unit is read: it stands in the body of a table, or
    ends a line. -/
def IsRecordedAtOnce (us : List CommentUnit) (p : Nat) : Prop :=
  (∃ u ∈ us[p]?, u.IsComment ∧ Line.IsInBody (firsts us) p) ∨ (endingAt? us p).isSome

/-- The comment of unit `p` is recorded at once, while an earlier one of the same table, unit `k`,
    waits, as no brace was open where it stands. -/
def Overtakes (us : List CommentUnit) (p k : Nat) : Prop :=
  k < p ∧ (∃ u ∈ us[k]?, u.IsComment) ∧ Line.depthBefore (firsts us) k ≤ 0 ∧
    (∃ h, Line.current? (firsts us) k = some h ∧ Line.current? (firsts us) p = some h) ∧
      IsRecordedAtOnce us p

variable {us : List CommentUnit} {u : CommentUnit} {k p q : Nat}

/-! ### One place -/

/-- A comment that is recorded at a place stands there or before it. -/
theorem of_mem_recorded {x : CommentUnit × Nat} (hx : x ∈ recorded us p) :
    us[x.2]? = some x.1 ∧ x.1.IsComment ∧ recordedAt (firsts us) x.2 = p ∧ x.2 ≤ p := by
  obtain ⟨hmem, hx⟩ := List.mem_filter.1 hx
  obtain ⟨hcomment, hat⟩ := of_decide_eq_true hx
  have hu := List.mem_zipIdx_iff_getElem?.1 hmem
  exact ⟨hu, hcomment, hat, hat ▸ le_recordedAt (lt_length_firsts hu)⟩

/-- A record is made of comments, or ends a line. -/
theorem cases_of_mem_recordsAt {c : Comment} (hc : c ∈ recordsAt us p) :
    (∃ x xs, recorded us p = x :: xs ∧
      c = recordAt (firsts us) p (Text.unlines (texts (recorded us p)))) ∨
    endingAt? us p = some c := by
  rcases List.mem_append.1 hc with hc | hc
  · rw [grouped] at hc
    split at hc
    · exact absurd hc List.not_mem_nil
    · next hne =>
      obtain ⟨x, xs, hrecorded⟩ := List.exists_cons_of_ne_nil
        (fun h => hne (by rw [h]; rfl) : recorded us p ≠ [])
      exact .inl ⟨x, xs, hrecorded, List.mem_singleton.1 hc⟩
  · exact .inr (Option.mem_toList.1 hc)

/-- The first line of a record is that of the first comment it is made of. -/
theorem head?_lines_of_recorded (hus : ∀ u ∈ us, u.IsFormed) {x : CommentUnit × Nat}
    {xs : List (CommentUnit × Nat)} (hrecorded : recorded us p = x :: xs) :
    (Text.lines (recordAt (firsts us) p (Text.unlines (texts (recorded us p)))).text).head? =
      some x.1.first := by
  obtain ⟨hu, -⟩ := of_mem_recorded (hrecorded ▸ List.mem_cons_self : x ∈ recorded us p)
  rw [(of_recordAt _ _ _).1, hrecorded, texts, List.map_cons,
    Text.lines_unlines (List.cons_ne_nil _ _), List.flatMap_cons,
    (hus x.1 (List.mem_of_getElem? hu)).lines_text]
  rfl

/-- A record begins where it is made or before. -/
theorem beginsAt_le : beginsAt us p ≤ p := by
  rw [beginsAt]
  cases hhead : (recorded us p).head? with
  | none => exact Nat.le_refl p
  | some x => exact (of_mem_recorded (List.mem_of_mem_head? hhead)).2.2.2

/-- A record begins with the first of its comments. -/
theorem beginsAt_le_of_mem {x : CommentUnit × Nat} (hx : x ∈ recorded us p) :
    beginsAt us p ≤ x.2 := by
  -- The comments of a place are in the order of the text.
  have hsorted : (recorded us p).Pairwise (·.2 ≤ ·.2) := by
    refine List.Pairwise.filter _ (List.pairwise_map.1 ?_)
    rw [List.zipIdx_map_snd]
    exact List.pairwise_le_range'
  rw [beginsAt]
  cases hrecorded : recorded us p with
  | nil => exact absurd (hrecorded ▸ hx) List.not_mem_nil
  | cons y ys =>
    rw [hrecorded] at hx hsorted
    rcases List.mem_cons.1 hx with rfl | hx
    · exact Nat.le_refl _
    · exact (List.pairwise_cons.1 hsorted).1 x hx

/-- A unit that ends in a comment is none, and takes none. -/
theorem recorded_of_endingAt? (hending : (endingAt? us p).isSome) : recorded us p = [] := by
  obtain ⟨c, hc⟩ := Option.isSome_iff_exists.1 hending
  obtain ⟨u, hu, hother, -⟩ := of_mem_endingAt? hc
  have htakes : ¬ Line.TakesComments (firsts us) p := fun htakes =>
    hother (.inl (htakes.isDefinition (CommentUnit.getElem?_firsts hu)))
  rw [recorded_of_getElem? hu, if_neg htakes, if_neg fun h => hother (.inr h.1)]
  rfl

/-- Something is recorded at a place if comments are, or if its unit ends in one. -/
theorem recordsAt_ne_nil_iff :
    recordsAt us p ≠ [] ↔ recorded us p ≠ [] ∨ (endingAt? us p).isSome := by
  rw [recordsAt, grouped, texts]
  cases recorded us p <;> cases endingAt? us p <;> simp

/-- At a place there is one record at most. -/
theorem recordsAt_length_le : (recordsAt us p).length ≤ 1 := by
  rw [recordsAt]
  cases hending : endingAt? us p with
  | none =>
    rw [Option.toList_none, List.append_nil, grouped]
    split
    · exact Nat.zero_le 1
    · exact Nat.le_refl 1
  | some c =>
    rw [recorded_of_endingAt? (by rw [hending]; rfl)]
    exact Nat.le_refl 1

/-- What is recorded at once begins where it is recorded. -/
theorem beginsAt_of_isRecordedAtOnce (hp : IsRecordedAtOnce us p) :
    recordsAt us p ≠ [] ∧ beginsAt us p = p := by
  rw [recordsAt_ne_nil_iff, beginsAt]
  rcases hp with ⟨u, hu, hcomment, hbody⟩ | hending
  · rw [recorded_of_isInBody hu hcomment hbody]
    exact ⟨.inl (List.cons_ne_nil _ _), rfl⟩
  · rw [recorded_of_endingAt? hending]
    exact ⟨.inr hending, rfl⟩

/-- All other records are made where comments are taken. -/
theorem takesComments_of_recordsAt (hp : p < us.length) (hrecords : recordsAt us p ≠ [])
    (honce : ¬ IsRecordedAtOnce us p) : Line.TakesComments (firsts us) p := by
  by_contra htakes
  have hu : us[p]? = some us[p] := List.getElem?_eq_getElem hp
  rcases recordsAt_ne_nil_iff.1 hrecords with hrecorded | hending
  · refine hrecorded ?_
    rw [recorded_of_getElem? hu, if_neg htakes, if_neg fun h => honce (.inl ⟨_, hu, h⟩)]
    rfl
  · exact honce (.inr hending)

theorem lt_length_of_isRecordedAtOnce (hp : IsRecordedAtOnce us p) : p < us.length := by
  rcases hp with ⟨u, hu, -⟩ | hending
  · exact (List.getElem?_eq_some_iff.1 hu).1
  · obtain ⟨c, hc⟩ := Option.isSome_iff_exists.1 hending
    obtain ⟨u, hu, -⟩ := of_mem_endingAt? hc
    exact (List.getElem?_eq_some_iff.1 hu).1

/-- What is recorded at once is recorded in a table. -/
theorem isSome_current?_of_isRecordedAtOnce (hp : IsRecordedAtOnce us p) :
    (Line.current? (firsts us) p).isSome := by
  rcases hp with ⟨_, _, _, hbody⟩ | hending
  · exact hbody.1
  · obtain ⟨c, hc⟩ := Option.isSome_iff_exists.1 hending
    obtain ⟨_, -, -, table, _, _, _, htable, -⟩ := of_mem_endingAt? hc
    rw [← Line.isSome_tableAt?, htable]
    rfl

/-! ### Two places -/

/-- Where no comment is overtaken, the record of a later place begins after an earlier place at
    which there is a record as well. -/
theorem lt_beginsAt (hnone : ∀ p k, ¬ Overtakes us p k) (hpq : p < q) (hq : q ≤ us.length)
    (hp : recordsAt us p ≠ []) : p < beginsAt us q := by
  rw [beginsAt]
  cases hhead : (recorded us q).head? with
  | none => exact hpq
  | some x =>
    obtain ⟨hu, hcomment, hat, -⟩ := of_mem_recorded (List.mem_of_mem_head? hhead)
    show p < x.2
    by_contra hle
    have hxp : x.2 ≤ p := Nat.le_of_not_lt hle
    -- The comment is recorded after the place `p`, so no line up to there takes comments.
    have hbody : ¬ Line.IsInBody (firsts us) x.2 := fun hbody => by
      rw [recordedAt_of_isInBody hbody] at hat
      omega
    have hleast := isLeast_recordedAt hbody (lt_length_firsts hu)
    rw [hat] at hleast
    have hfree : ∀ j, x.2 < j → j ≤ p → ¬ Line.TakesComments (firsts us) j := by
      intro j hxj hjp htakes
      exact Nat.not_lt_of_le (hleast.2 ⟨hxj, .inl htakes⟩) (Nat.lt_of_le_of_lt hjp hpq)
    -- So what is recorded at `p` is recorded at once, and not the comment itself.
    have honce : IsRecordedAtOnce us p := by
      by_contra honce
      have htakes := takesComments_of_recordsAt (Nat.lt_of_lt_of_le hpq hq) hp honce
      rcases Nat.lt_or_eq_of_le hxp with hlt | rfl
      · exact hfree p hlt (Nat.le_refl p) htakes
      · exact not_isComment_of_takesComments hu htakes hcomment
    have hlt : x.2 < p := by
      refine Nat.lt_of_le_of_ne hxp ?_
      rintro rfl
      rcases honce with ⟨_, _, _, hin⟩ | hending
      · exact hbody hin
      · rw [endingAt?_eq_none hu (.inr hcomment)] at hending
        exact Bool.noConfusion hending
    obtain ⟨h, hc⟩ := Option.isSome_iff_exists.1 (isSome_current?_of_isRecordedAtOnce honce)
    -- Its table started before the comment already, as its header takes comments.
    have hhx : h ≤ x.2 := by
      by_contra hlate
      obtain ⟨l, hl, hheader⟩ := Line.isTableHeader_of_current? hc
      exact hfree h (Nat.lt_of_not_le hlate) (Line.le_of_current? hc) ⟨l, hl, .inl hheader⟩
    have hcx := Line.current?_of_le hc hhx hxp
    have hdepth : Line.depthBefore (firsts us) x.2 ≤ 0 := by
      by_contra hpos
      exact hbody ⟨by rw [hcx]; rfl, Int.lt_of_not_ge hpos⟩
    exact hnone p x.2 ⟨hlt, ⟨_, hu, hcomment⟩, hdepth, ⟨h, hcx, hc⟩, honce⟩

/-- The record of a comment that is overtaken is made later, but does not begin later. -/
theorem exists_beginsAt_le (h : Overtakes us p k) :
    ∃ q, p < q ∧ q ≤ us.length ∧ recordsAt us q ≠ [] ∧ beginsAt us q ≤ k := by
  obtain ⟨hkp, ⟨u, hu, hcomment⟩, hdepth, ⟨h, hck, hcp⟩, honce⟩ := h
  have hk := lt_length_firsts hu
  have hbody : ¬ Line.IsInBody (firsts us) k := fun hbody => Int.not_lt_of_ge hdepth hbody.2
  have hmem : (u, k) ∈ recorded us (recordedAt (firsts us) k) :=
    List.mem_filter.2 ⟨List.mem_zipIdx_iff_getElem?.2 hu, decide_eq_true ⟨hcomment, rfl⟩⟩
  refine ⟨recordedAt (firsts us) k, ?_, ?_, ?_, beginsAt_le_of_mem hmem⟩
  · -- Up to the line that overtakes there is neither another table nor an enum outside of one.
    obtain ⟨hlt, htakes⟩ := (isLeast_recordedAt hbody hk).1
    generalize recordedAt (firsts us) k = q at hlt htakes
    by_contra hle
    have hqp := Nat.le_of_not_lt hle
    have hcq := Line.current?_of_le hcp ((Line.le_of_current? hck).trans (Nat.le_of_lt hlt)) hqp
    rcases htakes with ⟨l, hl, hheader | ⟨-, hnone⟩⟩ | hend
    · have hhq := Nat.lt_of_le_of_lt (Line.le_of_current? hck) hlt
      exact Line.not_isTableHeader_of_current? hcp hhq hqp hl hheader
    · exact nomatch hnone.symm.trans hcq
    · rw [hend, CommentUnit.length_firsts] at hqp
      exact Nat.not_lt_of_le hqp (lt_length_of_isRecordedAtOnce honce)
  · rw [← CommentUnit.length_firsts]
    exact recordedAt_le_length hk
  · exact recordsAt_ne_nil_iff.2 (.inl (List.ne_nil_of_mem hmem))

/-- The records come in the order in which they begin if and only if no comment is overtaken. -/
theorem pairwise_located_iff :
    (located us).Pairwise (·.1 < ·.1) ↔ ∀ p k, ¬ Overtakes us p k := by
  have hone : ∀ p ∈ List.range (us.length + 1),
      ((recordsAt us p).map (startLine us (beginsAt us p), ·)).Pairwise (·.1 < ·.1) := by
    intro p _
    have hlength : (recordsAt us p).length ≤ 1 := recordsAt_length_le
    cases hrecords : recordsAt us p with
    | nil => exact List.Pairwise.nil
    | cons c cs =>
      rw [hrecords] at hlength
      obtain rfl := List.length_eq_zero_iff.1 (Nat.le_zero.1 (Nat.le_of_succ_le_succ hlength))
      exact List.pairwise_singleton _ _
  rw [located, List.pairwise_flatMap, and_iff_right hone]
  constructor
  · -- What overtakes begins where it is recorded, which is after the comment that waits.
    intro hsorted p k hover
    obtain ⟨q, hpq, hq, hrecords, hle⟩ := exists_beginsAt_le hover
    obtain ⟨hkp, -, -, -, honce⟩ := hover
    obtain ⟨hp, hbegins⟩ := beginsAt_of_isRecordedAtOnce honce
    obtain ⟨c, hc⟩ := List.exists_mem_of_ne_nil _ hp
    obtain ⟨d, hd⟩ := List.exists_mem_of_ne_nil _ hrecords
    have hlt := List.pairwise_iff_getElem.1 hsorted p q (by simp; omega) (by simp; omega) hpq
    rw [List.getElem_range, List.getElem_range] at hlt
    have hbefore := hlt _ (List.mem_map_of_mem hc) _ (List.mem_map_of_mem hd)
    have hplt := lt_length_of_isRecordedAtOnce honce
    rw [hbegins, CommentUnit.startLine_lt_iff (Nat.le_of_lt hplt) (beginsAt_le.trans hq)] at hbefore
    omega
  · -- Otherwise the record of each place begins after the places before it that have one.
    intro hnone
    refine List.Pairwise.imp_of_mem (fun {p q} _ hq hpq => ?_) List.pairwise_lt_range
    intro x hx y hy
    obtain ⟨c, hc, rfl⟩ := List.mem_map.1 hx
    obtain ⟨d, hd, rfl⟩ := List.mem_map.1 hy
    have hq := Nat.le_of_lt_succ (List.mem_range.1 hq)
    refine CommentUnit.startLine_lt ?_ (beginsAt_le.trans hq)
    exact Nat.lt_of_le_of_lt beginsAt_le (lt_beginsAt hnone hpq hq (List.ne_nil_of_mem hc))

/-! ## The records of a text -/

/-- The lines of the units `us` are lines, and each record begins with the line found for it. -/
theorem beginsOn_of_mem_located (hus : ∀ u ∈ us, u.IsFormed) {x : Nat × Comment}
    (hx : x ∈ located us) : BeginsOn (us.flatMap (·.lines)) x.1 x.2 := by
  obtain ⟨p, -, hx⟩ := List.mem_flatMap.1 hx
  obtain ⟨c, hc, rfl⟩ := List.mem_map.1 hx
  rcases cases_of_mem_recordsAt hc with ⟨y, ys, hrecorded, rfl⟩ | hending
  · -- A record made of comments begins with the first line of the first of them.
    have hbegins : beginsAt us p = y.2 := by rw [beginsAt, hrecorded]; rfl
    obtain ⟨hu, -⟩ := of_mem_recorded (hrecorded ▸ List.mem_cons_self : y ∈ recorded us p)
    refine ⟨y.1.first, ?_, y.1.first, head?_lines_of_recorded hus hrecorded, ?_⟩
    · rw [hbegins]
      exact CommentUnit.getElem?_startLine hu
    · rw [if_neg (of_recordAt _ _ _).2]
  · -- A comment that ends a line begins with it.
    have hbegins : beginsAt us p = p := by
      rw [beginsAt, recorded_of_endingAt? (Option.isSome_iff_exists.2 ⟨c, hending⟩)]
      rfl
    obtain ⟨u, hu, -, table, code, comment, field, -, hcut, -, rfl⟩ := of_mem_endingAt? hending
    obtain ⟨hsuffix, -, hnewline⟩ := Line.suffix_of_inlineComment? hcut
    have hfirst := (hus u (List.mem_of_getElem? hu)).newline u.first List.mem_cons_self
    rw [if_neg fun hlast => hfirst (List.mem_of_getLast? hlast)] at hsuffix
    refine ⟨u.first, ?_, comment, ?_, hsuffix⟩
    · rw [hbegins]
      exact CommentUnit.getElem?_startLine hu
    · show comment ∈ (Text.lines comment).head?
      rw [Text.lines_eq_singleton hnewline]
      rfl

/-- The records of a text begin with the lines found for them, which increase if and only if no
    comment of the text is overtaken. -/
theorem located_extract (t : Text) :
    (located (CommentUnit.ofLines (Text.lines t))).map Prod.snd = extract t ∧
      (∀ x ∈ located (CommentUnit.ofLines (Text.lines t)), BeginsOn (Text.lines t) x.1 x.2) ∧
      ((located (CommentUnit.ofLines (Text.lines t))).Pairwise (·.1 < ·.1) ↔
        ∀ p k, ¬ Overtakes (CommentUnit.ofLines (Text.lines t)) p k) := by
  refine ⟨?_, fun x hx => ?_, pairwise_located_iff⟩
  · rw [extract_eq_flatMap_recordsAt, located, List.map_flatMap]
    refine List.flatMap_congr fun p _ => ?_
    rw [List.map_map]
    exact List.map_id _
  · have hbegins := beginsOn_of_mem_located (fun _ => CommentUnit.isFormed_of_mem_ofLines) hx
    rwa [CommentUnit.flatMap_lines_ofLines] at hbegins

/-- A comment between the header of a table and its brace is overtaken by one in its body, and no
    increasing lines can be found for the two. -/
theorem not_beginsOn_overtaken :
    ¬ ∃ ns : List Nat, ns.Pairwise (· < ·) ∧
      List.Forall₂ (BeginsOn (Text.lines "Table t\n// a\n\x7b\n// b\n\x7d".toList)) ns
        (extract "Table t\n// a\n\x7b\n// b\n\x7d".toList) := by
  have hextract : extract "Table t\n// a\n\x7b\n// b\n\x7d".toList =
      [.inBody "// b".toList (some "t".toList), .footer "// a".toList] := by decide
  have hinside : ∀ n < 5, BeginsOn (Text.lines "Table t\n// a\n\x7b\n// b\n\x7d".toList) n
      (.inBody "// b".toList (some "t".toList)) → n = 3 := by decide
  have houtside : ∀ n < 5, BeginsOn (Text.lines "Table t\n// a\n\x7b\n// b\n\x7d".toList) n
      (.footer "// a".toList) → n = 1 := by decide
  have hlt : ∀ {n c}, BeginsOn (Text.lines "Table t\n// a\n\x7b\n// b\n\x7d".toList) n c →
      n < 5 := fun ⟨_, hl, _⟩ => (List.getElem?_eq_some_iff.1 hl).1
  rw [hextract]
  rintro ⟨ns, hsorted, hbegins⟩
  obtain ⟨n, ms, hn, hrest, rfl⟩ := List.forall₂_cons_right_iff.1 hbegins
  obtain ⟨m, _, hm, -, rfl⟩ := List.forall₂_cons_right_iff.1 hrest
  have hnm := (List.pairwise_cons.1 hsorted).1 m List.mem_cons_self
  rw [hinside n (hlt hn) hn, houtside m (hlt hm) hm] at hnm
  exact absurd hnm (by decide)

end Comment

end DbmlRestore
