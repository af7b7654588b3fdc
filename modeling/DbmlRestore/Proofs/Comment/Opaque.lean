import DbmlRestore.Proofs.Comment.SourceOrder

/-!
# The inside of a block comment

Only the first line of a unit is looked at. A block comment that is closed is a unit, and what
follows it is cut into units on its own (`CommentUnit.ofLines_block`); so the lines between the two
that open and close it show up in its text and nowhere else. They may be headers, hold braces and
quotes, or look like comments.

Two texts that differ in such lines have records of the same kinds with the same anchors, in the
same order, and with the same texts but for one: that of the record which the block comment goes
into (`Comment.extract_block`).
-/

namespace DbmlRestore

/-! ## Cutting -/

namespace CommentUnit

/-- The unit is no block comment, or one that is closed. -/
def IsClosed (u : CommentUnit) : Prop :=
  Line.opensComment (Text.trim u.first) = true → ∃ l ∈ u.lines, Line.closesComment l = true

instance : DecidablePred IsClosed := fun u =>
  inferInstanceAs (Decidable (_ → ∃ l ∈ u.lines, _))

/-- Where no block comment is left open, cutting starts anew. -/
theorem IsCut.append {ls ls' : List Line} {us us' : List CommentUnit} (h : IsCut ls us)
    (hclosed : ∀ u ∈ us, u.IsClosed) (h' : IsCut ls' us') : IsCut (ls ++ ls') (us ++ us') := by
  induction h with
  | nil => exact h'
  | line hopens _ ih =>
    exact .line hopens (ih fun u hu => hclosed u (List.mem_cons_of_mem _ hu))
  | closed hopens hlines hopen hcloses _ ih =>
    rw [List.append_assoc]
    exact .closed hopens hlines hopen hcloses (ih fun u hu => hclosed u (List.mem_cons_of_mem _ hu))
  | unclosed hopens hopen =>
    obtain ⟨l, hl, hcloses⟩ := hclosed _ List.mem_cons_self hopens
    exact Bool.noConfusion ((hopen l hl).symm.trans hcloses)

variable {before inside : List Line} {first last : Line}

/-- A block comment is one unit, from the line that opens it to the one that closes it. -/
theorem ofLines_block (hbefore : ∀ u ∈ ofLines before, u.IsClosed)
    (hopens : Line.opensComment (Text.trim first) = true)
    (hfirst : Line.closesComment first = false)
    (hinside : ∀ l ∈ inside, Line.closesComment l = false)
    (hlast : Line.closesComment last = true) (after : List Line) :
    ofLines (before ++ first :: inside ++ last :: after) =
      ofLines before ++ ⟨first, inside ++ [last]⟩ :: ofLines after := by
  have hunit : lines ⟨first, inside ++ [last]⟩ = first :: inside ++ [last] := rfl
  have hblock : IsCut (first :: (inside ++ [last]) ++ after)
      (⟨first, inside ++ [last]⟩ :: ofLines after) :=
    .closed hopens hunit (List.forall_mem_cons.2 ⟨hfirst, hinside⟩) hlast (isCut_iff.2 rfl)
  have hcut := (isCut_iff.2 rfl : IsCut before (ofLines before)).append hbefore hblock
  have hlines : before ++ first :: inside ++ last :: after =
      before ++ (first :: (inside ++ [last]) ++ after) := by simp
  rw [hlines, ← isCut_iff.1 hcut]

end CommentUnit

/-! ## One unit among others -/

namespace Comment

open CommentUnit (firsts)

variable {us vs : List CommentUnit} {u v : CommentUnit} {p : Nat}

theorem firsts_append_cons (us : List CommentUnit) (u : CommentUnit) (vs : List CommentUnit) :
    firsts (us ++ u :: vs) = firsts us ++ u.first :: firsts vs := by
  simp [firsts]

theorem isComment_congr (h : v.first = u.first) : v.IsComment ↔ u.IsComment := by
  rw [CommentUnit.IsComment, h, ← CommentUnit.IsComment]

/-- What ends a line is known from the first lines. -/
theorem endingAt?_congr (h : firsts us = firsts vs) (p : Nat) :
    endingAt? us p = endingAt? vs p := by
  have hfirst : us[p]?.map (·.first) = vs[p]?.map (·.first) := by
    rw [← List.getElem?_map, ← List.getElem?_map]
    exact congrArg (·[p]?) h
  rw [endingAt?, endingAt?, h]
  cases hu : us[p]? with
  | none =>
    rw [hu] at hfirst
    rw [Option.map_eq_none_iff.1 hfirst.symm]
  | some u =>
    rw [hu] at hfirst
    obtain ⟨v, hv, hvu⟩ := Option.map_eq_some_iff.1 hfirst.symm
    simp only [hv, Option.bind_some, hvu, isComment_congr hvu]

/-- Of some units, the comments that are recorded at place `p`. -/
def recordedOf (ls : List Line) (p : Nat) (xs : List (CommentUnit × Nat)) :
    List (CommentUnit × Nat) :=
  xs.filter fun x => x.1.IsComment ∧ recordedAt ls x.2 = p

/-- The comments that are recorded at a place stand before a unit, are the unit, or stand behind
    it. -/
theorem recorded_append_cons (us : List CommentUnit) (u : CommentUnit) (vs : List CommentUnit)
    (p : Nat) : recorded (us ++ u :: vs) p =
      recordedOf (firsts us ++ u.first :: firsts vs) p us.zipIdx ++
        ((if u.IsComment ∧ recordedAt (firsts us ++ u.first :: firsts vs) us.length = p
          then [(u, us.length)] else []) ++
        recordedOf (firsts us ++ u.first :: firsts vs) p (vs.zipIdx (us.length + 1))) := by
  rw [recorded, firsts_append_cons, List.zipIdx_append, List.filter_append, List.zipIdx_cons,
    List.filter_cons, Nat.zero_add]
  simp only [decide_eq_true_eq]
  split <;> rfl

/-- A unit leaves no trace where it is not recorded. -/
theorem recordsAt_eq_of_ne (hfirst : v.first = u.first)
    (hp : p ≠ recordedAt (firsts us ++ u.first :: firsts vs) us.length) :
    recordsAt (us ++ v :: vs) p = recordsAt (us ++ u :: vs) p := by
  have hfirsts : firsts (us ++ v :: vs) = firsts (us ++ u :: vs) := by
    rw [firsts_append_cons, firsts_append_cons, hfirst]
  rw [recordsAt, recordsAt, endingAt?_congr hfirsts, hfirsts, recorded_append_cons,
    recorded_append_cons, hfirst, if_neg fun h => hp h.2.symm, if_neg fun h => hp h.2.symm]

/-- The place decides on the kind and on the anchor of a record. -/
theorem exists_recordAt_eq (ls : List Line) (p : Nat) :
    ∃ kind anchor, ∀ t, recordAt ls p t = ⟨kind, t, anchor⟩ := by
  refine ⟨(recordAt ls p []).kind, (recordAt ls p []).anchor, fun t => ?_⟩
  rw [recordAt]
  cases (ls.take p).any Line.isDefinition <;> cases ls[p]? with
  | none => rfl
  | some l =>
    dsimp only
    cases Line.tableHeader? (Text.trim l) with
    | some h => rfl
    | none => cases Line.isEnumHeader (Text.trim l) <;> rfl

/-- Where a comment is recorded there is one record, which has the text of the comment among those
    of others. -/
theorem exists_recordsAt_eq (us vs : List CommentUnit) {first : Line}
    (hopens : Line.opensComment (Text.trim first) = true) :
    ∃ kind anchor above below, ∀ u : CommentUnit, u.first = first →
      recordsAt (us ++ u :: vs) (recordedAt (firsts us ++ first :: firsts vs) us.length) =
        [⟨kind, Text.unlines (above ++ u.text :: below), anchor⟩] := by
  generalize hp : recordedAt (firsts us ++ first :: firsts vs) us.length = p
  obtain ⟨kind, anchor, hrecord⟩ := exists_recordAt_eq (firsts us ++ first :: firsts vs) p
  refine ⟨kind, anchor, texts (recordedOf (firsts us ++ first :: firsts vs) p us.zipIdx),
    texts (recordedOf (firsts us ++ first :: firsts vs) p (vs.zipIdx (us.length + 1))), ?_⟩
  rintro u rfl
  have hrecorded := recorded_append_cons us u vs p
  rw [if_pos ⟨.inr hopens, hp⟩] at hrecorded
  -- Where a comment at the end of a line is recorded no other one is, but the unit is one.
  have hending : endingAt? (us ++ u :: vs) p = none := by
    rw [← Option.not_isSome_iff_eq_none]
    intro hsome
    rw [recorded_of_endingAt? hsome] at hrecorded
    simp at hrecorded
  rw [recordsAt, hending, hrecorded, firsts_append_cons, texts_append, texts_append, grouped,
    if_neg (by simp [texts]), hrecord]
  rfl

/-- The records up to a place, those of the place, and those behind it. -/
theorem flatMap_range_succ {α : Type} {n : Nat} (hp : p ≤ n) (f : Nat → List α) :
    (List.range (n + 1)).flatMap f =
      (List.range p).flatMap f ++ (f p ++ (List.range' (p + 1) (n - p)).flatMap f) := by
  have hsplit : List.range (n + 1) = List.range p ++ p :: List.range' (p + 1) (n - p) := by
    have hlength : n + 1 = p + (n - p + 1) := by omega
    rw [hlength, List.range_eq_range', ← List.range'_append_1, List.range'_succ, Nat.zero_add,
      ← List.range_eq_range']
  rw [hsplit, List.flatMap_append, List.flatMap_cons]

/-- Among others, a unit that opens a block comment shows up with its text in one of the records.
    All else in them is known from its first line. -/
theorem exists_flatMap_recordsAt_eq (us vs : List CommentUnit) {first : Line}
    (hopens : Line.opensComment (Text.trim first) = true) :
    ∃ pre post kind anchor above below, ∀ u : CommentUnit, u.first = first →
      (List.range ((us ++ u :: vs).length + 1)).flatMap (recordsAt (us ++ u :: vs)) =
        pre ++ ⟨kind, Text.unlines (above ++ u.text :: below), anchor⟩ :: post := by
  obtain ⟨kind, anchor, above, below, hrecord⟩ := exists_recordsAt_eq us vs hopens
  have hle : recordedAt (firsts us ++ first :: firsts vs) us.length ≤
      (firsts us ++ first :: firsts vs).length :=
    recordedAt_le_length (by simp [CommentUnit.length_firsts])
  generalize hp : recordedAt (firsts us ++ first :: firsts vs) us.length = p at hrecord hle
  -- The records of the other places are those that any unit with this first line leaves.
  refine ⟨(List.range p).flatMap (recordsAt (us ++ ⟨first, []⟩ :: vs)),
    (List.range' (p + 1) ((firsts us ++ first :: firsts vs).length - p)).flatMap
      (recordsAt (us ++ ⟨first, []⟩ :: vs)), kind, anchor, above, below, ?_⟩
  rintro u rfl
  have hother : ∀ q, q ≠ p →
      recordsAt (us ++ u :: vs) q = recordsAt (us ++ ⟨u.first, []⟩ :: vs) q := fun q hq =>
    recordsAt_eq_of_ne (u := ⟨u.first, []⟩) rfl (hp ▸ hq)
  have hpre : (List.range p).flatMap (recordsAt (us ++ u :: vs)) =
      (List.range p).flatMap (recordsAt (us ++ ⟨u.first, []⟩ :: vs)) :=
    List.flatMap_congr fun q hq => hother q (Nat.ne_of_lt (List.mem_range.1 hq))
  have hpost : ∀ n, (List.range' (p + 1) n).flatMap (recordsAt (us ++ u :: vs)) =
      (List.range' (p + 1) n).flatMap (recordsAt (us ++ ⟨u.first, []⟩ :: vs)) := fun n =>
    List.flatMap_congr fun q hq => hother q (Nat.ne_of_gt (List.mem_range'_1.1 hq).1)
  rw [← CommentUnit.length_firsts, firsts_append_cons, flatMap_range_succ hle, hrecord u rfl, hpre,
    hpost]
  rfl

/-- Whatever stands between the first and the last line of a block comment, the text has records
    of the same kinds, with the same anchors, and with the same texts except for one record. This
    one is made of the block comment and of what stands above and below it. -/
theorem extract_block {before after : List Line} {first last : Line}
    (hlines : ∀ l ∈ before ++ first :: last :: after, '\n' ∉ l)
    (hbefore : ∀ u ∈ CommentUnit.ofLines before, u.IsClosed)
    (hopens : Line.opensComment (Text.trim first) = true)
    (hfirst : Line.closesComment first = false) (hlast : Line.closesComment last = true) :
    ∃ pre post kind anchor above below, ∀ inside : List Line,
      (∀ l ∈ inside, '\n' ∉ l ∧ Line.closesComment l = false) →
        extract (Text.unlines (before ++ first :: inside ++ last :: after)) =
          pre ++ ⟨kind, Text.unlines (above ++ Text.unlines (first :: inside ++ [last]) :: below),
            anchor⟩ :: post := by
  obtain ⟨pre, post, kind, anchor, above, below, hrecords⟩ := exists_flatMap_recordsAt_eq
    (CommentUnit.ofLines before) (CommentUnit.ofLines after) hopens
  refine ⟨pre, post, kind, anchor, above, below, fun inside hinside => ?_⟩
  have hnewline : ∀ l ∈ before ++ first :: inside ++ last :: after, '\n' ∉ l := by
    simp only [List.forall_mem_append, List.forall_mem_cons] at hlines ⊢
    obtain ⟨hbefore, hfirst, hlast, hafter⟩ := hlines
    exact ⟨⟨hbefore, hfirst, fun l hl => (hinside l hl).1⟩, hlast, hafter⟩
  -- Whatever stands inside, it is cut into one unit, and the other units are the same.
  have hunits := CommentUnit.ofLines_block hbefore hopens hfirst
    (fun l hl => (hinside l hl).2) hlast after
  rw [extract_eq_flatMap_recordsAt, Text.lines_unlines_of_forall (by simp) hnewline, hunits,
    hrecords _ rfl]
  rfl

/-- Between the two lines of the comment there may be the header of another table and a brace that
    is not closed. The records are as they are with nothing there. -/
theorem extract_block_header :
    let before := ["Table t \x7b".toList]
    let after := ["  \"id\" int // key".toList, "\x7d".toList]
    let inside := ["Table u \x7b".toList, "// \"".toList]
    (∀ l ∈ before ++ "/* c".toList :: "*/".toList :: after, '\n' ∉ l) ∧
      (∀ u ∈ CommentUnit.ofLines before, u.IsClosed) ∧
      Line.opensComment (Text.trim "/* c".toList) = true ∧
      Line.closesComment "/* c".toList = false ∧ Line.closesComment "*/".toList = true ∧
      (∀ l ∈ inside, '\n' ∉ l ∧ Line.closesComment l = false) ∧
      ∃ pre post kind anchor above below,
        extract (Text.unlines (before ++ "/* c".toList :: inside ++ "*/".toList :: after)) =
          pre ++ ⟨kind, Text.unlines (above ++ "/* c\nTable u \x7b\n// \"\n*/".toList :: below),
            anchor⟩ :: post ∧
        extract (Text.unlines (before ++ "/* c".toList :: "*/".toList :: after)) =
          pre ++ ⟨kind, Text.unlines (above ++ "/* c\n*/".toList :: below), anchor⟩ :: post := by
  intro before after inside
  have hlines : ∀ l ∈ before ++ "/* c".toList :: "*/".toList :: after, '\n' ∉ l := by decide
  have hbefore : ∀ u ∈ CommentUnit.ofLines before, u.IsClosed := by decide
  have hinside : ∀ l ∈ inside, '\n' ∉ l ∧ Line.closesComment l = false := by decide
  obtain ⟨pre, post, kind, anchor, above, below, hextract⟩ :=
    extract_block hlines hbefore (by decide) (by decide) (by decide)
  exact ⟨hlines, hbefore, by decide, by decide, by decide, hinside, pre, post, kind, anchor, above,
    below, hextract inside hinside, hextract [] (List.forall_mem_nil _)⟩

end Comment

end DbmlRestore
