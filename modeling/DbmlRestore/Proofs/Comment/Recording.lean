import DbmlRestore.Proofs.Comment.Extracted
import DbmlRestore.Proofs.Line.Current

/-!
# Where comments are recorded

A comment on lines of its own is recorded where it stands if that is in the body of a table. Every
other one waits for the next unit that takes comments (`Line.TakesComments`): the header of a table,
or that of an enum outside of the tables. If there is none, it waits for the end of the text. So the
place of its record is known from the first lines of the units (`Comment.recordedAt`), and what is
recorded there, from the place (`Comment.recordAt`).

* `Extraction.step_before`: what one unit adds, and which comments wait after it;
* `Comment.extract_eq_flatMap_recordsAt`: the comments of a text, from place to place;
* `Comment.standalone_extract`: each comment on lines of its own is in the one record made at its
  place, together with the others of that place, and there are no other records but those of
  comments that end a line.

The text may be any: comments, headers and braces may stand in every order.
-/

namespace DbmlRestore

/-! ## Places -/

namespace Line

/-- Line `i` stands in the body of a table. -/
def IsInBody (ls : List Line) (i : Nat) : Prop := (current? ls i).isSome ∧ 0 < depthBefore ls i

/-- The comments that wait before line `i` are recorded at this line. -/
def TakesComments (ls : List Line) (i : Nat) : Prop :=
  ∃ l ∈ ls[i]?, IsTableHeader l ∨ isEnumHeader (Text.trim l) = true ∧ current? ls i = none

instance (ls : List Line) : DecidablePred (IsInBody ls) := fun _ =>
  inferInstanceAs (Decidable (_ ∧ _))

instance (ls : List Line) : DecidablePred (TakesComments ls) := fun i =>
  inferInstanceAs (Decidable (∃ l ∈ ls[i]?, _))

theorem TakesComments.lt_length {ls : List Line} {i : Nat} (h : TakesComments ls i) :
    i < ls.length := by
  obtain ⟨l, hl, -⟩ := h
  exact (List.getElem?_eq_some_iff.1 hl).1

/-- Only definitions take comments. -/
theorem TakesComments.isDefinition {ls : List Line} {i : Nat} {l : Line} (h : TakesComments ls i)
    (hl : ls[i]? = some l) : isDefinition l = true := by
  obtain ⟨m, hm, h⟩ := h
  obtain rfl : l = m := Option.some.inj (hl.symm.trans hm)
  exact Bool.or_eq_true_iff.2 (h.imp_right (·.1))

end Line

namespace Comment

open CommentUnit (firsts)

/-- Where a comment that stands at line `i` is recorded: there, in the body of a table; else at the
    first line after it that takes comments; and at the end if there is none. -/
def recordedAt (ls : List Line) (i : Nat) : Nat :=
  if Line.IsInBody ls i then i
  else ((List.range' (i + 1) (ls.length - (i + 1))).find? (Line.TakesComments ls ·)).getD ls.length

/-- What is recorded at a place: the comment of a table at its header, unless no definition stands
    before it, which makes it one of the schema's header, as it is at the header of an enum; the
    footer at the end, or again the header of the schema; and a comment of its table elsewhere. -/
def recordAt (ls : List Line) (p : Nat) : Text → Comment :=
  -- The header of an enum counts as a definition also inside of a table, where it takes nothing.
  let defined := (ls.take p).any Line.isDefinition
  match ls[p]? with
  | none => if defined then .footer else .header
  | some l =>
    match Line.tableHeader? (Text.trim l) with
    | some h => if defined then (.onTable · h.table) else .header
    | none => if Line.isEnumHeader (Text.trim l) then .header else (.inBody · (Line.tableAt? ls p))

/-- The record has the text it is made of, and is no comment at the end of a line. -/
theorem of_recordAt (ls : List Line) (p : Nat) (t : Text) :
    (recordAt ls p t).text = t ∧ (recordAt ls p t).kind ≠ .inline := by
  rw [recordAt]
  cases (ls.take p).any Line.isDefinition <;> cases ls[p]? with
  | none => exact ⟨rfl, by rintro ⟨⟩⟩
  | some l =>
    dsimp only
    cases Line.tableHeader? (Text.trim l) with
    | some h => exact ⟨rfl, by rintro ⟨⟩⟩
    | none => cases Line.isEnumHeader (Text.trim l) <;> exact ⟨rfl, by rintro ⟨⟩⟩

/-- The comments that are recorded at place `p`, with the places where they stand. -/
def recorded (us : List CommentUnit) (p : Nat) : List (CommentUnit × Nat) :=
  us.zipIdx.filter fun x => x.1.IsComment ∧ recordedAt (firsts us) x.2 = p

/-- The comments that wait before unit `i`. -/
def waiting (us : List CommentUnit) (i : Nat) : List (CommentUnit × Nat) :=
  (us.zipIdx.take i).filter fun x => x.1.IsComment ∧ i ≤ recordedAt (firsts us) x.2

/-- The texts of some units. -/
def texts (xs : List (CommentUnit × Nat)) : List Text := xs.map fun x => x.1.text

theorem texts_append (xs ys : List (CommentUnit × Nat)) : texts (xs ++ ys) = texts xs ++ texts ys :=
  List.map_append

/-- The comment that ends unit `i`, if the unit is the line of a field of the current table. -/
def endingAt? (us : List CommentUnit) (i : Nat) : Option Comment :=
  us[i]?.bind fun u =>
    if Line.isDefinition u.first ∨ u.IsComment then none
    else (Line.tableAt? (firsts us) i).bind fun table =>
      (Line.inlineComment? u.first).bind fun (code, comment) =>
        (Line.fieldName? (Text.trim code)).map fun field =>
          .inline comment (some table) (some field)

/-- Neither a definition nor a comment has a comment at its end. -/
theorem endingAt?_eq_none {us : List CommentUnit} {u : CommentUnit} {i : Nat} (hu : us[i]? = some u)
    (h : Line.isDefinition u.first = true ∨ u.IsComment) : endingAt? us i = none := by
  rw [endingAt?, hu, Option.bind_some, if_pos h]

theorem endingAt?_length (us : List CommentUnit) : endingAt? us us.length = none := by
  rw [endingAt?, List.getElem?_eq_none (Nat.le_refl _)]
  rfl

/-- A unit that ends in a comment is neither a definition nor a comment, and stands in a table. -/
theorem of_mem_endingAt? {us : List CommentUnit} {i : Nat} {c : Comment}
    (hc : c ∈ endingAt? us i) :
    ∃ u, us[i]? = some u ∧ ¬ (Line.isDefinition u.first = true ∨ u.IsComment) ∧
      ∃ table code comment field, Line.tableAt? (firsts us) i = some table ∧
        Line.inlineComment? u.first = some (code, comment) ∧
        Line.fieldName? (Text.trim code) = some field ∧
        c = .inline comment (some table) (some field) := by
  obtain ⟨u, hu, hc⟩ := Option.bind_eq_some_iff.1 hc
  split at hc
  · cases hc
  · next hother =>
    obtain ⟨table, htable, hc⟩ := Option.bind_eq_some_iff.1 hc
    obtain ⟨⟨code, comment⟩, hcut, hc⟩ := Option.bind_eq_some_iff.1 hc
    obtain ⟨field, hfield, rfl⟩ := Option.map_eq_some_iff.1 hc
    exact ⟨u, hu, hother, table, code, comment, field, htable, hcut, hfield, rfl⟩

/-- The comments that are recorded at place `p`, made one, and the one that ends its unit. -/
def recordsAt (us : List CommentUnit) (p : Nat) : List Comment :=
  grouped (recordAt (firsts us) p) (texts (recorded us p)) ++ (endingAt? us p).toList

/-! ### Comments that wait -/

section Places

variable {ls : List Line} {i p : Nat}

/-- A comment outside of the bodies waits for the first line after it that takes comments. -/
theorem isLeast_recordedAt (hbody : ¬ Line.IsInBody ls i) (hi : i < ls.length) :
    IsLeast {j | i < j ∧ (Line.TakesComments ls j ∨ j = ls.length)} (recordedAt ls i) := by
  rw [recordedAt, if_neg hbody]
  cases hfind : (List.range' (i + 1) (ls.length - (i + 1))).find? (Line.TakesComments ls ·) with
  | none =>
    rw [List.find?_range'_eq_none] at hfind
    refine ⟨⟨hi, .inr rfl⟩, fun j ⟨hij, hj⟩ => ?_⟩
    rcases hj with hj | rfl
    · have hnot := hfind j hij (by have := hj.lt_length; omega)
      rw [decide_eq_true hj] at hnot
      exact Bool.noConfusion hnot
    · exact Nat.le_refl _
  | some j =>
    obtain ⟨hj, hmem, hleast⟩ := List.find?_range'_eq_some.1 hfind
    refine ⟨⟨(List.mem_range'_1.1 hmem).1, .inl (of_decide_eq_true hj)⟩, fun k ⟨hik, hk⟩ => ?_⟩
    by_contra hlt
    rcases hk with hk | rfl
    · have hnot := hleast k hik (Nat.lt_of_not_le hlt)
      rw [decide_eq_true hk] at hnot
      exact Bool.noConfusion hnot
    · exact hlt (Nat.le_of_lt (of_decide_eq_true hj).lt_length)

/-- In a body, a comment is recorded where it stands. -/
theorem recordedAt_of_isInBody (hbody : Line.IsInBody ls i) : recordedAt ls i = i := by
  rw [recordedAt, if_pos hbody]

example : [0, 2, 4].map (recordedAt (Text.lines "// a\nTable t \x7b\n// b\n\x7d\n// c".toList)) =
    [1, 2, 5] := by decide

/-- Outside of the bodies, a comment waits for a later line. -/
theorem lt_recordedAt (hbody : ¬ Line.IsInBody ls i) (hi : i < ls.length) : i < recordedAt ls i :=
  (isLeast_recordedAt hbody hi).1.1

/-- Comments are recorded where they stand or later. -/
theorem le_recordedAt (hi : i < ls.length) : i ≤ recordedAt ls i := by
  by_cases hbody : Line.IsInBody ls i
  · exact Nat.le_of_eq (recordedAt_of_isInBody hbody).symm
  · exact Nat.le_of_lt (lt_recordedAt hbody hi)

theorem recordedAt_le_length (hi : i < ls.length) : recordedAt ls i ≤ ls.length := by
  by_cases hbody : Line.IsInBody ls i
  · exact Nat.le_of_lt ((recordedAt_of_isInBody hbody).symm ▸ hi)
  · exact (isLeast_recordedAt hbody hi).2 ⟨hi, .inr rfl⟩

/-- No comment waits beyond a line that takes comments. -/
theorem recordedAt_le (hp : Line.TakesComments ls p) (hi : i < p) : recordedAt ls i ≤ p := by
  by_cases hbody : Line.IsInBody ls i
  · exact Nat.le_of_lt ((recordedAt_of_isInBody hbody).symm ▸ hi)
  · exact (isLeast_recordedAt hbody (hi.trans hp.lt_length)).2 ⟨hi, .inl hp⟩

/-- A comment is recorded at a later line only if this line takes comments. -/
theorem takesComments_of_recordedAt (hi : recordedAt ls i = p) (hip : i < p) (hp : p < ls.length) :
    Line.TakesComments ls p := by
  have hbody : ¬ Line.IsInBody ls i := fun hbody =>
    Nat.ne_of_lt hip ((recordedAt_of_isInBody hbody).symm.trans hi)
  rcases (isLeast_recordedAt hbody (hip.trans hp)).1.2 with htakes | hend
  · exact hi ▸ htakes
  · exact absurd (hi.symm.trans hend) (Nat.ne_of_lt hp)

end Places

section Units

variable {us : List CommentUnit} {u : CommentUnit} {i : Nat}

theorem of_mem_zipIdx_drop {x : CommentUnit × Nat} (hx : x ∈ us.zipIdx.drop i) :
    us[x.2]? = some x.1 ∧ i ≤ x.2 := by
  obtain ⟨k, hk⟩ := List.mem_iff_getElem?.1 hx
  rw [List.getElem?_drop, List.getElem?_zipIdx, Nat.zero_add] at hk
  obtain ⟨v, hv, rfl⟩ := Option.map_eq_some_iff.1 hk
  exact ⟨hv, Nat.le_add_right i k⟩

/-- The units with their positions are found at these positions. -/
theorem of_mem_zipIdx_take {x : CommentUnit × Nat} (hx : x ∈ us.zipIdx.take i) :
    us[x.2]? = some x.1 ∧ x.2 < i := by
  obtain ⟨k, hk⟩ := List.mem_iff_getElem?.1 hx
  rw [List.getElem?_take] at hk
  split at hk
  · next hki =>
    rw [List.getElem?_zipIdx, Nat.zero_add] at hk
    obtain ⟨v, hv, rfl⟩ := Option.map_eq_some_iff.1 hk
    exact ⟨hv, hki⟩
  · exact nomatch hk

theorem lt_length_firsts (hu : us[i]? = some u) : i < (firsts us).length := by
  rw [CommentUnit.length_firsts]
  exact (List.getElem?_eq_some_iff.1 hu).1

theorem zipIdx_take_succ (hu : us[i]? = some u) :
    us.zipIdx.take (i + 1) = us.zipIdx.take i ++ [(u, i)] := by
  rw [List.take_add_one, List.getElem?_zipIdx, hu, Nat.zero_add]
  rfl

/-- A unit that takes comments is no comment itself. -/
theorem not_isComment_of_takesComments (hu : us[i]? = some u)
    (htakes : Line.TakesComments (firsts us) i) : ¬ u.IsComment := fun hcomment => by
  have hdef := htakes.isDefinition (CommentUnit.getElem?_firsts hu)
  exact Bool.noConfusion (hcomment.isDefinition_eq_false.symm.trans hdef)

/-- The comments recorded at a unit are those that wait before it if it takes comments, and itself
    if it is a comment in a body. -/
theorem recorded_of_getElem? (hu : us[i]? = some u) :
    recorded us i =
      (if Line.TakesComments (firsts us) i then waiting us i else []) ++
        if u.IsComment ∧ Line.IsInBody (firsts us) i then [(u, i)] else [] := by
  have hi := lt_length_firsts hu
  have hdrop : us.zipIdx.drop i = (u, i) :: us.zipIdx.drop (i + 1) := by
    have hget : us.zipIdx[i]? = some (u, i) := by
      rw [List.getElem?_zipIdx, hu, Nat.zero_add]
      rfl
    obtain ⟨hlt, heq⟩ := List.getElem?_eq_some_iff.1 hget
    rw [List.drop_eq_getElem_cons hlt, heq]
  -- Before the unit: those that wait, if they are recorded here, and none else.
  have hbefore : (us.zipIdx.take i).filter
        (fun x => x.1.IsComment ∧ recordedAt (firsts us) x.2 = i) =
      if Line.TakesComments (firsts us) i then waiting us i else [] := by
    split
    · next htakes =>
      refine List.filter_congr fun x hx => ?_
      have hle := recordedAt_le htakes (of_mem_zipIdx_take hx).2
      rw [decide_eq_decide, ← Nat.le_antisymm_iff.trans (and_iff_right hle)]
    · next hnot =>
      refine List.filter_eq_nil_iff.2 fun x hx hrecorded => hnot ?_
      obtain ⟨-, hat⟩ := of_decide_eq_true hrecorded
      exact takesComments_of_recordedAt hat (of_mem_zipIdx_take hx).2 hi
  -- After the unit: nothing, as no comment is recorded before the place where it stands.
  have hafter : (us.zipIdx.drop (i + 1)).filter
      (fun x => x.1.IsComment ∧ recordedAt (firsts us) x.2 = i) = [] := by
    refine List.filter_eq_nil_iff.2 fun x hx hrecorded => ?_
    obtain ⟨-, hat⟩ := of_decide_eq_true hrecorded
    obtain ⟨hx, hix⟩ := of_mem_zipIdx_drop hx
    have hle := le_recordedAt (lt_length_firsts hx)
    omega
  have hself : recordedAt (firsts us) i = i ↔ Line.IsInBody (firsts us) i := by
    refine ⟨fun hat => ?_, recordedAt_of_isInBody⟩
    by_contra hbody
    exact Nat.ne_of_gt (lt_recordedAt hbody hi) hat
  rw [recorded, ← List.take_append_drop i us.zipIdx, List.filter_append, hbefore, hdrop,
    List.filter_cons, hafter]
  simp only [hself, decide_eq_true_eq]

/-- A comment in the body of a table has a record of its own. -/
theorem recorded_of_isInBody (hu : us[i]? = some u) (hcomment : u.IsComment)
    (hbody : Line.IsInBody (firsts us) i) : recorded us i = [(u, i)] := by
  have htakes : ¬ Line.TakesComments (firsts us) i := fun htakes =>
    not_isComment_of_takesComments hu htakes hcomment
  rw [recorded_of_getElem? hu, if_neg htakes, if_pos ⟨hcomment, hbody⟩]
  rfl

/-- At the end all comments that wait are recorded. -/
theorem recorded_length : recorded us us.length = waiting us us.length := by
  have hall : us.zipIdx.take us.length = us.zipIdx :=
    List.take_of_length_le (Nat.le_of_eq List.length_zipIdx)
  rw [recorded, waiting, hall]
  refine List.filter_congr fun x hx => ?_
  have hle := recordedAt_le_length (lt_length_firsts (List.mem_zipIdx_iff_getElem?.1 hx))
  rw [CommentUnit.length_firsts] at hle
  rw [decide_eq_decide, ← Nat.le_antisymm_iff.trans (and_iff_right hle)]

/-- At the end there are the footer and the header only. -/
theorem recordAt_length (t : Text) :
    recordAt (firsts us) us.length t =
      if (firsts us).any Line.isDefinition then .footer t else .header t := by
  have hlength := Nat.le_of_eq (CommentUnit.length_firsts us)
  rw [recordAt, List.getElem?_eq_none hlength, List.take_of_length_le hlength]
  split <;> rfl

/-- After a unit no comments wait if it takes comments, and the same ones if it does not, as well
    as itself if it is a comment outside of the bodies. -/
theorem waiting_succ (hu : us[i]? = some u) :
    waiting us (i + 1) =
      (if Line.TakesComments (firsts us) i then [] else waiting us i) ++
        if u.IsComment ∧ ¬ Line.IsInBody (firsts us) i then [(u, i)] else [] := by
  have hi := lt_length_firsts hu
  have hbefore : (us.zipIdx.take i).filter
        (fun x => x.1.IsComment ∧ i + 1 ≤ recordedAt (firsts us) x.2) =
      if Line.TakesComments (firsts us) i then [] else waiting us i := by
    split
    · next htakes =>
      -- Nothing waits beyond a unit that takes comments.
      refine List.filter_eq_nil_iff.2 fun x hx hwaits => ?_
      obtain ⟨-, hwaits⟩ := of_decide_eq_true hwaits
      exact Nat.not_lt_of_le (recordedAt_le htakes (of_mem_zipIdx_take hx).2) hwaits
    · next hnot =>
      -- Nothing is recorded at any other unit but itself.
      refine List.filter_congr fun x hx => ?_
      have hne : recordedAt (firsts us) x.2 ≠ i := fun hat =>
        hnot (takesComments_of_recordedAt hat (of_mem_zipIdx_take hx).2 hi)
      rw [decide_eq_decide, Nat.succ_le_iff, Nat.lt_iff_le_and_ne, and_iff_left hne.symm]
  have hself : i + 1 ≤ recordedAt (firsts us) i ↔ ¬ Line.IsInBody (firsts us) i := by
    refine ⟨fun hlt hbody => ?_, fun hbody => lt_recordedAt hbody hi⟩
    exact Nat.ne_of_gt hlt (recordedAt_of_isInBody hbody)
  rw [waiting, zipIdx_take_succ hu, List.filter_append, hbefore, List.filter_cons, List.filter_nil]
  simp only [hself, decide_eq_true_eq]

end Units

end Comment

/-! ## One unit -/

namespace Extraction

open Comment
open CommentUnit (firsts)

/-- The state after some units. -/
def after (e : Extraction) (us : List CommentUnit) : Extraction :=
  us.foldl (fun e u => (e.step u).2) e

/-- The state before unit `i`. -/
def before (us : List CommentUnit) (i : Nat) : Extraction := start.after (us.take i)

variable (e : Extraction) {us : List CommentUnit} {u : CommentUnit} {i : Nat}

/-- Extracting follows the scan of the first lines of the units. -/
theorem after_scan (us : List CommentUnit) : (e.after us).scan = e.scan.after (firsts us) := by
  induction us generalizing e with
  | nil => rfl
  | cons u us ih =>
    show ((e.step u).2.after us).scan = (e.scan.pass u.first).after (firsts us)
    rw [ih, step_snd]

/-- A definition was read if one was known before, or if a unit begins with one. -/
theorem after_defined (us : List CommentUnit) :
    (e.after us).defined = (e.defined || (firsts us).any Line.isDefinition) := by
  induction us generalizing e with
  | nil => exact (Bool.or_false _).symm
  | cons u us ih =>
    show ((e.step u).2.after us).defined = (_ || (_ || (firsts us).any Line.isDefinition))
    rw [ih, step_snd, Bool.or_assoc]

/-- So it does up to any unit. -/
theorem before_scan (us : List CommentUnit) (i : Nat) :
    (before us i).scan = TableScan.start.after ((firsts us).take i) := by
  rw [before, after_scan, CommentUnit.firsts_take]
  rfl

theorem before_defined (us : List CommentUnit) (i : Nat) :
    (before us i).defined = ((firsts us).take i).any Line.isDefinition := by
  rw [before, after_defined, CommentUnit.firsts_take]
  exact Bool.false_or _

theorem before_succ (hu : us[i]? = some u) : before us (i + 1) = ((before us i).step u).2 := by
  rw [before, List.take_add_one, hu, after, List.foldl_append]
  rfl

/-- What ends a line that is neither a definition nor a comment. -/
theorem inlineOf_before (hu : us[i]? = some u) (hdef : Line.isDefinition u.first = false)
    (hcomment : ¬ u.IsComment) :
    (before us i).inlineOf u.first = (endingAt? us i).toList := by
  have ht := (Line.isDefinition_eq_false_iff.1 hdef).1
  have hother : ¬ (Line.isDefinition u.first = true ∨ u.IsComment) := by
    rintro (h | h)
    · exact Bool.noConfusion (hdef.symm.trans h)
    · exact hcomment h
  rw [inlineOf, before_scan, TableScan.table?_after (CommentUnit.getElem?_firsts hu) ht,
    endingAt?, hu, Option.bind_some, if_neg hother]
  cases Line.tableAt? (firsts us) i with
  | none => rfl
  | some table =>
    cases Line.inlineComment? u.first with
    | none => rfl
    | some cut =>
      obtain ⟨code, comment⟩ := cut
      dsimp only [Option.bind_some]
      cases Line.fieldName? (Text.trim code) <;> rfl

/-- A comment is recorded at once in a body, and waits elsewhere. -/
theorem step_before_of_comment (hu : us[i]? = some u) (hcomment : u.IsComment)
    (hpending : (before us i).pending = texts (waiting us i)) :
    ((before us i).step u).1 = recordsAt us i ∧
      ((before us i).step u).2.pending = texts (waiting us (i + 1)) := by
  have hl := CommentUnit.getElem?_firsts hu
  obtain ⟨ht, he⟩ := Line.isDefinition_eq_false_iff.1 hcomment.isDefinition_eq_false
  have htakes : ¬ Line.TakesComments (firsts us) i := fun htakes =>
    not_isComment_of_takesComments hu htakes hcomment
  have hbody := TableScan.bodyTable?_see_after hl
  rw [TableScan.see_of_none ht, ← before_scan] at hbody
  rw [recordsAt, recorded_of_getElem? hu, waiting_succ hu, if_neg htakes, if_neg htakes,
    endingAt?_eq_none hu (.inr hcomment), step_of_comment _ hcomment, addComment, hbody]
  by_cases hin : Line.IsInBody (firsts us) i
  · -- In a body, the comment is recorded by itself.
    obtain ⟨table, htable⟩ := Option.isSome_iff_exists.1 (Line.isSome_tableAt?.trans hin.1)
    have hrecord : recordAt (firsts us) i = (.inBody · (some table)) := by
      simp only [recordAt, hl, ht, he, htable, Bool.false_eq_true, if_false]
    rw [if_pos hin.2, htable, if_pos ⟨hcomment, hin⟩, if_neg fun h => h.2 hin, hrecord]
    refine ⟨?_, hpending.trans (congrArg _ (List.append_nil _).symm)⟩
    show [Comment.inBody u.text table] = [Comment.inBody (Text.unlines [u.text]) table]
    rw [Text.unlines_singleton]
  · -- Outside of the bodies, it waits with the others.
    have hnone : (if 0 < Line.depthBefore (firsts us) i then Line.tableAt? (firsts us) i
        else none) = none := by
      split
      · next hdepth =>
        rw [← Option.isSome_eq_false_iff.trans Option.isNone_iff_eq_none, Line.isSome_tableAt?]
        exact Bool.eq_false_iff.2 fun hsome => hin ⟨hsome, hdepth⟩
      · rfl
    rw [hnone, if_neg fun h => hin h.2, if_pos ⟨hcomment, hin⟩]
    refine ⟨rfl, ?_⟩
    rw [texts_append, ← hpending]
    rfl

/-- A definition that takes comments takes all that wait. -/
theorem step_before_of_takesComments (hu : us[i]? = some u)
    (htakes : Line.TakesComments (firsts us) i)
    (hpending : (before us i).pending = texts (waiting us i)) :
    ((before us i).step u).1 = recordsAt us i ∧
      ((before us i).step u).2.pending = texts (waiting us (i + 1)) := by
  have hl := CommentUnit.getElem?_firsts hu
  have hcomment := not_isComment_of_takesComments hu htakes
  have hrecords : recordsAt us i =
      grouped (recordAt (firsts us) i) (before us i).pending ++ (endingAt? us i).toList := by
    rw [recordsAt, recorded_of_getElem? hu, if_pos htakes, if_neg fun h => hcomment h.1,
      List.append_nil, hpending]
  have hwaiting : waiting us (i + 1) = [] := by
    rw [waiting_succ hu, if_pos htakes, if_neg fun h => hcomment h.1]
    rfl
  have hending := endingAt?_eq_none hu (.inl (htakes.isDefinition hl))
  rw [hrecords, hwaiting, hending, Option.toList_none, List.append_nil]
  obtain ⟨l, hl', htakes⟩ := htakes
  obtain rfl : u.first = l := Option.some.inj (hl.symm.trans hl')
  cases ht : Line.tableHeader? (Text.trim u.first) with
  | some h =>
    have hrecord : recordAt (firsts us) i = fun t =>
        if (before us i).defined then .onTable t h.table else .header t := by
      -- The definitions before the unit are those that the scan has kept in mind.
      simp only [recordAt, hl, ht, ← before_defined]
      cases (before us i).defined <;> rfl
    rw [step_of_header _ ht, hrecord]
    exact ⟨rfl, rfl⟩
  | none =>
    rcases htakes with hheader | ⟨he, hcurrent⟩
    · rw [Line.IsTableHeader, ht] at hheader
      exact Bool.noConfusion hheader
    · have hrecord : recordAt (firsts us) i = .header := by
        simp only [recordAt, hl, ht, he, if_true]
      have htable : (before us i).scan.table? = none := by
        rw [before_scan, TableScan.table?_after hl ht, ← Option.isNone_iff_eq_none,
          ← Option.isSome_eq_false_iff, Line.isSome_tableAt?, hcurrent]
        rfl
      rw [step_of_enum _ ht he, enterEnum, htable, hrecord]
      exact ⟨rfl, rfl⟩

/-- Nothing that waits is touched by other units, which may end in a comment. -/
theorem step_before_of_other (hu : us[i]? = some u) (hcomment : ¬ u.IsComment)
    (htakes : ¬ Line.TakesComments (firsts us) i)
    (hpending : (before us i).pending = texts (waiting us i)) :
    ((before us i).step u).1 = recordsAt us i ∧
      ((before us i).step u).2.pending = texts (waiting us (i + 1)) := by
  have hl := CommentUnit.getElem?_firsts hu
  have ht : Line.tableHeader? (Text.trim u.first) = none := by
    by_contra hne
    exact htakes ⟨u.first, hl, .inl (Option.isSome_iff_ne_none.2 hne)⟩
  have hrecords : recordsAt us i = (endingAt? us i).toList := by
    rw [recordsAt, recorded_of_getElem? hu, if_neg htakes, if_neg fun h => hcomment h.1]
    rfl
  have hwaiting : waiting us (i + 1) = waiting us i := by
    rw [waiting_succ hu, if_neg htakes, if_neg fun h => hcomment h.1, List.append_nil]
  rw [hrecords, hwaiting]
  cases he : Line.isEnumHeader (Text.trim u.first) with
  | true =>
    -- The header of an enum inside of a table: it is kept in mind, but leaves the comments waiting.
    have hdef : Line.isDefinition u.first = true := by rw [Line.isDefinition, he, Bool.or_true]
    obtain ⟨table, htable⟩ : ∃ table, (before us i).scan.table? = some table := by
      rw [before_scan, TableScan.table?_after hl ht, ← Option.isSome_iff_exists,
        Line.isSome_tableAt?, Option.isSome_iff_ne_none]
      exact fun hcurrent => htakes ⟨u.first, hl, .inr ⟨he, hcurrent⟩⟩
    rw [step_of_enum _ ht he, enterEnum, htable, endingAt?_eq_none hu (.inl hdef)]
    exact ⟨rfl, hpending⟩
  | false =>
    have hdef := Line.isDefinition_eq_false_iff.2 ⟨ht, he⟩
    rw [step_of_other _ hdef hcomment, ← inlineOf_before hu hdef hcomment]
    exact ⟨rfl, hpending⟩

/-- What one unit adds, and which comments wait after it. -/
theorem step_before (hu : us[i]? = some u)
    (hpending : (before us i).pending = texts (waiting us i)) :
    ((before us i).step u).1 = recordsAt us i ∧
      ((before us i).step u).2.pending = texts (waiting us (i + 1)) := by
  by_cases htakes : Line.TakesComments (firsts us) i
  · exact step_before_of_takesComments hu htakes hpending
  · by_cases hcomment : u.IsComment
    · exact step_before_of_comment hu hcomment hpending
    · exact step_before_of_other hu hcomment htakes hpending

/-! ## All units -/

/-- The comments that wait before a unit are those that stand before it and are not recorded before
    it. -/
theorem before_pending (hi : i ≤ us.length) : (before us i).pending = texts (waiting us i) := by
  induction i with
  | zero => rfl
  | succ i ih =>
    have hu : us[i]? = some us[i] := List.getElem?_eq_getElem hi
    rw [before_succ hu]
    exact (step_before hu (ih (Nat.le_of_succ_le hi))).2

/-- A run goes from unit to unit, each with the state that the units before it have left. -/
theorem run_eq_flatMap (e : Extraction) (us : List CommentUnit) :
    e.run us = us.zipIdx.flatMap (fun x => ((e.after (us.take x.2)).step x.1).1) ++
      (e.after us).finish := by
  induction us generalizing e with
  | nil => rfl
  | cons u us ih =>
    rw [run, ih, List.zipIdx_cons, List.zipIdx_succ, List.flatMap_cons, List.flatMap_map,
      List.append_assoc]
    rfl

/-- What still waits at the end is recorded there. -/
theorem finish_after (us : List CommentUnit) :
    (start.after us).finish = recordsAt us us.length := by
  have hbefore : before us us.length = start.after us := by rw [before, List.take_length]
  have hdefined : (firsts us).any Line.isDefinition = (start.after us).defined := by
    rw [after_defined]
    exact (Bool.false_or _).symm
  have hpending := before_pending (Nat.le_refl us.length)
  rw [hbefore] at hpending
  have hrecord : recordAt (firsts us) us.length = fun t =>
      if (start.after us).defined then .footer t else .header t :=
    hdefined ▸ funext recordAt_length
  rw [recordsAt, recorded_length, ← hpending, hrecord, endingAt?_length]
  exact (List.append_nil _).symm

end Extraction

namespace Comment

open CommentUnit (firsts)

/-- The comments of a text, from place to place. -/
theorem extract_eq_flatMap_recordsAt (t : Text) :
    extract t = (List.range ((CommentUnit.ofLines (Text.lines t)).length + 1)).flatMap
      (recordsAt (CommentUnit.ofLines (Text.lines t))) := by
  generalize hus : CommentUnit.ofLines (Text.lines t) = us
  have hunits : us.zipIdx.flatMap (fun x => ((Extraction.before us x.2).step x.1).1) =
      (List.range us.length).flatMap (recordsAt us) := by
    rw [List.range_eq_range', ← List.zipIdx_map_snd 0 us, List.flatMap_map]
    refine List.flatMap_congr fun x hx => ?_
    have hu := List.mem_zipIdx_iff_getElem?.1 hx
    have hi := Nat.le_of_lt (List.getElem?_eq_some_iff.1 hu).1
    exact (Extraction.step_before hu (Extraction.before_pending hi)).1
  rw [extract, hus, Extraction.run_eq_flatMap, Extraction.finish_after, List.range_succ,
    List.flatMap_append, ← hunits, List.flatMap_singleton]
  rfl

/-- Apart from the comments at the ends of lines there are those of the places where some are
    recorded. -/
theorem filter_flatMap_recordsAt (us : List CommentUnit) (ps : List Nat) :
    (ps.flatMap (recordsAt us)).filter (·.kind ≠ .inline) =
      (ps.filter (recorded us · ≠ [])).map fun p =>
        recordAt (firsts us) p (Text.unlines (texts (recorded us p))) := by
  induction ps with
  | nil => rfl
  | cons p ps ih =>
    -- At the end of a line, there are only inline comments.
    have hending : (endingAt? us p).toList.filter (·.kind ≠ .inline) = [] := by
      refine List.filter_eq_nil_iff.2 fun c hc => ?_
      obtain ⟨_, -, -, table, _, comment, field, -, -, -, rfl⟩ :=
        of_mem_endingAt? (Option.mem_toList.1 hc)
      rw [decide_eq_true_eq, not_not]
      rfl
    rw [List.flatMap_cons, List.filter_append, ih, recordsAt, List.filter_append, hending,
      List.append_nil, grouped]
    by_cases hnone : recorded us p = []
    · rw [List.filter_cons_of_neg (by simp [hnone]), hnone]
      rfl
    · have htexts : (texts (recorded us p)).isEmpty = false := by
        rw [List.isEmpty_eq_false_iff]
        exact fun h => hnone (List.map_eq_nil_iff.1 h)
      rw [List.filter_cons_of_pos (by simp [hnone]), htexts, if_neg Bool.false_ne_true,
        List.filter_singleton, decide_eq_true (of_recordAt _ _ _).2, List.map_cons]
      rfl

/-- The comments on lines of their own are recorded in the order of their places, in one record for
    each place. It is made of the units of the text that are comments and have that place, and of a
    single one if this stands in the body of a table. -/
theorem standalone_extract (t : Text) :
    ∃ us, CommentUnit.IsCut (Text.lines t) us ∧
      (∀ x ∈ us.zipIdx, x.1.IsComment → Line.IsInBody (firsts us) x.2 → recorded us x.2 = [x]) ∧
      ∃ places : List Nat, places.Pairwise (· < ·) ∧
        (∀ p, p ∈ places ↔ ∃ x ∈ us.zipIdx, x.1.IsComment ∧ recordedAt (firsts us) x.2 = p) ∧
        (extract t).filter (·.kind ≠ .inline) =
          places.map fun p => recordAt (firsts us) p (Text.unlines (texts (recorded us p))) := by
  refine ⟨CommentUnit.ofLines (Text.lines t), CommentUnit.isCut_iff.2 rfl, ?_⟩
  rw [extract_eq_flatMap_recordsAt]
  generalize CommentUnit.ofLines (Text.lines t) = us
  refine ⟨fun x hx => recorded_of_isInBody (List.mem_zipIdx_iff_getElem?.1 hx), _,
    List.Pairwise.filter _ List.pairwise_lt_range, fun p => ?_, filter_flatMap_recordsAt us _⟩
  -- The places are those at which some comment is recorded.
  rw [List.mem_filter, decide_eq_true_eq, ← List.isEmpty_eq_false_iff,
    List.isEmpty_eq_false_iff_exists_mem]
  constructor
  · rintro ⟨-, x, hx⟩
    obtain ⟨hmem, hx⟩ := List.mem_filter.1 hx
    exact ⟨x, hmem, of_decide_eq_true hx⟩
  · rintro ⟨x, hmem, hx⟩
    have hle := recordedAt_le_length (lt_length_firsts (List.mem_zipIdx_iff_getElem?.1 hmem))
    rw [hx.2, CommentUnit.length_firsts] at hle
    exact ⟨List.mem_range.2 (Nat.lt_succ_of_le hle), x, List.mem_filter.2 ⟨hmem, decide_eq_true hx⟩⟩

end Comment

end DbmlRestore
