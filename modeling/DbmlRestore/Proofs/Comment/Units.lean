import DbmlRestore.Proofs.Comment.Rereading

/-!
# Units

Before any of its lines is looked at, a text is cut into units. A line that opens a block comment
takes along the lines up to the first one that closes a block comment, or all lines if there is no
such line; every other line stays alone (`CommentUnit.IsCut`). There is one way only to cut lines
like this (`CommentUnit.isCut_iff`).

The units have all lines in order (`CommentUnit.flatMap_lines_ofLines`), and the lines of a unit
can be found again in its text (`CommentUnit.IsFormed.lines_text`).
-/

namespace DbmlRestore

namespace CommentUnit

/-! ## The cut -/

/-- The lines are cut into the units. -/
inductive IsCut : List Line → List CommentUnit → Prop where
  | nil : IsCut [] []
  /-- A line that opens no block comment is a unit of its own. -/
  | line {l : Line} {ls : List Line} {us : List CommentUnit} :
      Line.opensComment (Text.trim l) = false → IsCut ls us → IsCut (l :: ls) (single l :: us)
  /-- A block comment goes on to the first line that closes one, be it the line that opens it. -/
  | closed {u : CommentUnit} {pre : List Line} {last : Line} {ls : List Line}
      {us : List CommentUnit} :
      Line.opensComment (Text.trim u.first) = true → u.lines = pre ++ [last] →
      (∀ l ∈ pre, Line.closesComment l = false) → Line.closesComment last = true →
      IsCut ls us → IsCut (u.lines ++ ls) (u :: us)
  /-- If there is no such line, it goes on to the end. -/
  | unclosed {u : CommentUnit} :
      Line.opensComment (Text.trim u.first) = true →
      (∀ l ∈ u.lines, Line.closesComment l = false) → IsCut u.lines [u]

/-- The induction is on the lines, whatever block comment is open before them. -/
theorem isCut_ofLinesFrom {o : Option CommentUnit} (ls : List Line)
    (ho : ∀ u ∈ o, Line.opensComment (Text.trim u.first) = true ∧
      ∀ l ∈ u.lines, Line.closesComment l = false) :
    IsCut (o.toList.flatMap lines ++ ls) (ofLinesFrom o ls) := by
  induction ls generalizing o with
  | nil =>
    cases o with
    | none => exact .nil
    | some u =>
      obtain ⟨hopens, hopen⟩ := ho u rfl
      have hlines : [u].flatMap lines ++ [] = u.lines := by simp
      exact hlines ▸ .unclosed hopens hopen
  | cons l ls ih =>
    cases o with
    -- No comment is open: the line is a unit, or opens one.
    | none =>
      have hnone := ih (o := none) (by rintro _ ⟨⟩)
      show IsCut (l :: ls) _
      rw [ofLinesFrom]
      cases hopens : Line.opensComment (Text.trim l) with
      | false =>
        rw [isOpenEnded, hopens, Bool.false_and, if_neg Bool.false_ne_true]
        exact .line hopens hnone
      | true =>
        rw [isOpenEnded, hopens, Bool.true_and]
        cases hcloses : Line.closesComment l with
        | true =>
          exact .closed (u := single l) hopens (List.nil_append [l]).symm (List.forall_mem_nil _)
            hcloses hnone
        | false =>
          refine ih (o := some ⟨l, []⟩) fun u hu => ?_
          rw [← Option.some.inj hu]
          exact ⟨hopens, fun k hk => List.mem_singleton.1 hk ▸ hcloses⟩
    -- A comment is open: the line closes it, or goes on with it.
    | some u =>
      obtain ⟨hopens, hopen⟩ := ho u rfl
      have hpush : [u].flatMap lines ++ l :: ls = (u.push l).lines ++ ls := by
        simp [push, lines]
      show IsCut ([u].flatMap lines ++ l :: ls) _
      rw [hpush, ofLinesFrom]
      cases hcloses : Line.closesComment l with
      | true => exact .closed hopens rfl hopen hcloses (ih (o := none) (by rintro _ ⟨⟩))
      | false =>
        have hrest := ih (o := some (u.push l)) fun v hv => by
          rw [← Option.some.inj hv]
          refine ⟨hopens, fun k hk => ?_⟩
          have hk' : k ∈ u.lines ++ [l] := hk
          rcases List.mem_append.1 hk' with hk' | hk'
          · exact hopen k hk'
          · exact List.mem_singleton.1 hk' ▸ hcloses
        simpa using hrest

/-- A block comment that is open goes on over the lines that do not close it. -/
theorem ofLinesFrom_append {ms : List Line} (hopen : ∀ l ∈ ms, Line.closesComment l = false)
    (u : CommentUnit) (ls : List Line) :
    ofLinesFrom (some u) (ms ++ ls) = ofLinesFrom (some ⟨u.first, u.more ++ ms⟩) ls := by
  induction ms generalizing u with
  | nil => rw [List.nil_append, List.append_nil]
  | cons l ms ih =>
    rw [List.cons_append, ofLinesFrom, hopen l List.mem_cons_self, if_neg Bool.false_ne_true,
      ih fun k hk => hopen k (List.mem_cons_of_mem l hk), push, List.append_assoc]
    rfl

/-- There is one way only to cut lines into units. -/
theorem isCut_iff {ls : List Line} {us : List CommentUnit} : IsCut ls us ↔ us = ofLines ls := by
  refine ⟨fun hcut => ?_, fun h => h ▸ isCut_ofLinesFrom (o := none) ls (by rintro _ ⟨⟩)⟩
  induction hcut with
  | nil => rfl
  | @line l ls us hopens _ ih =>
    rw [ofLines, ofLinesFrom, isOpenEnded, hopens, Bool.false_and, if_neg Bool.false_ne_true, ih]
    rfl
  | @closed u pre last ls us hopens hlines hopen hcloses _ ih =>
    rw [hlines, List.append_assoc, List.singleton_append, ih]
    obtain ⟨first, more⟩ := u
    cases pre with
    | nil =>
      obtain ⟨rfl, rfl⟩ := List.cons.inj hlines
      rw [List.nil_append, ofLines, ofLines, ofLinesFrom, isOpenEnded, hcloses, Bool.not_true,
        Bool.and_false, if_neg Bool.false_ne_true]
    | cons l pre =>
      -- The first line leaves the comment open, and so do the lines up to the last one.
      obtain ⟨rfl, rfl⟩ := List.cons.inj hlines
      have hmore : ∀ k ∈ pre, Line.closesComment k = false := fun k hk =>
        hopen k (List.mem_cons_of_mem _ hk)
      rw [List.cons_append, ofLines, ofLines, ofLinesFrom, isOpenEnded, hopens,
        hopen _ List.mem_cons_self, Bool.not_false, Bool.and_true, if_pos rfl,
        ofLinesFrom_append hmore, ofLinesFrom, if_pos hcloses]
      rfl
  | @unclosed u hopens hopen =>
    have hmore := ofLinesFrom_append (fun k hk => hopen k (List.mem_cons_of_mem u.first hk))
      ⟨u.first, []⟩ []
    rw [List.append_nil] at hmore
    rw [lines, ofLines, ofLinesFrom, isOpenEnded, hopens, hopen u.first List.mem_cons_self,
      Bool.not_false, Bool.and_true, if_pos rfl, hmore]
    rfl

/-- The first lines, which are all that is looked at. -/
def firsts (us : List CommentUnit) : List Line := us.map (·.first)

theorem firsts_take (us : List CommentUnit) (i : Nat) : firsts (us.take i) = (firsts us).take i :=
  List.map_take

theorem length_firsts (us : List CommentUnit) : (firsts us).length = us.length := List.length_map _

theorem getElem?_firsts {us : List CommentUnit} {i : Nat} {u : CommentUnit}
    (hu : us[i]? = some u) : (firsts us)[i]? = some u.first := by
  rw [firsts, List.getElem?_map, hu]
  rfl

/-! ## Lines and texts -/

/-- The lines of a unit are lines, and more than one only after a line that opens a block
    comment. -/
structure IsFormed (u : CommentUnit) : Prop where
  newline : ∀ l ∈ u.lines, '\n' ∉ l
  opens : u.more = [] ∨ Line.opensComment (Text.trim u.first) = true

/-- Units cut from lines are formed: no line feed in a line, and several lines only after an
    opening. -/
theorem IsCut.isFormed {ls : List Line} {us : List CommentUnit} (h : IsCut ls us)
    (hls : ∀ l ∈ ls, '\n' ∉ l) : ∀ u ∈ us, u.IsFormed := by
  induction h with
  | nil => exact fun u hu => absurd hu List.not_mem_nil
  | line _ _ ih =>
    obtain ⟨hl, hls⟩ := List.forall_mem_cons.1 hls
    have hsingle : IsFormed (single _) := ⟨fun k hk => List.mem_singleton.1 hk ▸ hl, .inl rfl⟩
    exact List.forall_mem_cons.2 ⟨hsingle, ih hls⟩
  | closed hopens _ _ _ _ ih =>
    obtain ⟨hlines, hls⟩ := List.forall_mem_append.1 hls
    exact List.forall_mem_cons.2 ⟨⟨hlines, .inr hopens⟩, ih hls⟩
  | unclosed hopens _ => exact List.forall_mem_singleton.2 ⟨hls, .inr hopens⟩

/-- The units of a text are formed. -/
theorem isFormed_of_mem_ofLines {t : Text} {u : CommentUnit} (hu : u ∈ ofLines (Text.lines t)) :
    u.IsFormed :=
  (isCut_iff.2 rfl).isFormed (fun _ hl => Text.newline_not_mem hl) u hu

/-- The text of a formed unit has the lines of the unit. -/
theorem IsFormed.lines_text {u : CommentUnit} (h : u.IsFormed) : Text.lines u.text = u.lines :=
  Text.lines_unlines_of_forall (List.cons_ne_nil _ _) h.newline

/-- The units have all lines, in order. -/
theorem IsCut.flatMap_lines {ls : List Line} {us : List CommentUnit} (h : IsCut ls us) :
    us.flatMap lines = ls := by
  induction h with
  | nil => rfl
  | line _ _ ih => rw [List.flatMap_cons, ih]; rfl
  | closed _ _ _ _ _ ih => rw [List.flatMap_cons, ih]
  | unclosed _ _ => rw [List.flatMap_singleton]

/-- Cutting lines into units loses none of them. -/
theorem flatMap_lines_ofLines (ls : List Line) : (ofLines ls).flatMap lines = ls :=
  (isCut_iff.2 rfl).flatMap_lines

/-- A unit of remarks is one line. -/
theorem IsFormed.newline_not_mem_text {u : CommentUnit} (h : u.IsFormed)
    (hr : ∀ l ∈ Text.lines u.text, Line.IsRemark l) : '\n' ∉ u.text := by
  rcases h.opens with hmore | hopen
  · rw [text, lines, hmore, Text.unlines_singleton]
    exact h.newline u.first List.mem_cons_self
  · have hfirst := hr u.first (h.lines_text ▸ List.mem_cons_self)
    exact Bool.noConfusion (hfirst.opensComment_eq_false.symm.trans hopen)

end CommentUnit

end DbmlRestore
