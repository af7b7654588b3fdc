import DbmlRestore.Proofs.Comment.Emitted

/-!
# Comments and the fields they are meant for

A comment at the end of a line is anchored at a field of a table, and is looked up by a key: the two
names with a dot between them. Quoted names may hold dots, so different fields can have one key:
field `b.c` of table `a`, and field `c` of table `a.b`. Two such places are *confused*
(`Anchor.IsConfused`), and there is no other way to have one key (`Anchor.key_eq_key_iff`).

So a field is not always served by the comments that are anchored at it. If the last comment with its
key is meant for a place confused with it, then this comment is what the line takes
(`Comment.Misleads`). In all other cases a line is left as it is or takes the last comment that is
anchored at exactly its field (`Comment.takesOwn_merge_iff`).
-/

namespace DbmlRestore

/-! ## Keys -/

namespace Anchor

/-- Two places with one key: what the name of one table has more than that of the other, a dot and
    some text, is what the field of the other one has more, the text and a dot. -/
def IsConfused (a b : Anchor) : Prop :=
  ∃ table part field,
    a = ⟨some table, some (key part field)⟩ ∧ b = ⟨some (key table part), some field⟩ ∨
      a = ⟨some (key table part), some field⟩ ∧ b = ⟨some table, some (key part field)⟩

variable {table field table' field' : Text} {a b : Anchor}

/-- Both ways to read a key with two dots. -/
theorem key_key (table part field : Text) :
    key table (key part field) = key (key table part) field := by
  rw [key, key, key, key, List.append_assoc, List.cons_append]

/-- One of two tables with equal keys has no shorter name than the other, and its name goes on
    with what the field of that one starts with. -/
theorem key_eq_key_iff : key table field = key table' field' ↔
    (table = table' ∧ field = field') ∨
      (∃ part, table' = key table part ∧ field = key part field') ∨
      ∃ part, table = key table' part ∧ field' = key part field := by
  constructor
  · intro h
    rcases List.append_eq_append_iff.1 h with ⟨rest, htable, hfield⟩ | ⟨rest, htable, hfield⟩
    · cases rest with
      | nil => exact .inl ⟨(htable.trans (List.append_nil _)).symm, (List.cons.inj hfield).2⟩
      | cons c part =>
        obtain ⟨rfl, hrest⟩ := List.cons.inj hfield
        exact .inr (.inl ⟨part, htable, hrest⟩)
    · cases rest with
      | nil => exact .inl ⟨htable.trans (List.append_nil _), (List.cons.inj hfield).2.symm⟩
      | cons c part =>
        obtain ⟨rfl, hrest⟩ := List.cons.inj hfield
        exact .inr (.inr ⟨part, htable, hrest⟩)
  · rintro (⟨rfl, rfl⟩ | ⟨part, rfl, rfl⟩ | ⟨part, rfl, rfl⟩)
    · rfl
    · exact key_key table part field'
    · exact (key_key table' part field).symm

/-- An anchor has the key of a field if it is anchored there, or at a place confused with it. -/
theorem inlineKey?_eq_some_key_iff : a.inlineKey? = some (key table field) ↔
    a = ⟨some table, some field⟩ ∨ a.IsConfused ⟨some table, some field⟩ := by
  constructor
  · intro h
    obtain ⟨table', field', rfl⟩ : ∃ table' field', a = ⟨some table', some field'⟩ := by
      obtain ⟨_ | table', _ | field'⟩ := a
      · exact nomatch h
      · exact nomatch h
      · exact nomatch h
      · exact ⟨table', field', rfl⟩
    -- Keys are the same for the same names, or for names with a part that can be in either.
    rcases key_eq_key_iff.1 (Option.some.inj h) with
      ⟨rfl, rfl⟩ | ⟨part, rfl, rfl⟩ | ⟨part, rfl, rfl⟩
    · exact .inl rfl
    · exact .inr ⟨table', part, field, .inl ⟨rfl, rfl⟩⟩
    · exact .inr ⟨table, part, field', .inr ⟨rfl, rfl⟩⟩
  · rintro (rfl | ⟨table', part, field', ⟨rfl, h⟩ | ⟨rfl, h⟩⟩)
    · rfl
    · obtain ⟨htable, hfield⟩ := Anchor.mk.inj h
      rw [Option.some.inj htable, Option.some.inj hfield]
      exact congrArg some (key_key table' part field')
    · obtain ⟨htable, hfield⟩ := Anchor.mk.inj h
      rw [Option.some.inj htable, Option.some.inj hfield]
      exact congrArg some (key_key table' part field').symm

end Anchor

/-! ## The comment of a field -/

/-- The last of the members that satisfy `p` is followed by none that does. -/
theorem getLast?_filter_eq_some_iff {α : Type} {p : α → Bool} {as : List α} {a : α} :
    (as.filter p).getLast? = some a ↔
      p a = true ∧ ∃ pre post, as = pre ++ a :: post ∧ ∀ b ∈ post, p b = false := by
  rw [List.getLast?_filter, List.find?_eq_some_iff_append]
  refine and_congr_right fun _ => ⟨?_, ?_⟩
  · rintro ⟨post, pre, has, hpost⟩
    refine ⟨pre.reverse, post.reverse, ?_, fun b hb => ?_⟩
    · rw [← List.reverse_reverse as, has, List.reverse_append, List.reverse_cons, List.append_assoc]
      rfl
    · exact Bool.not_eq_true' _ ▸ hpost b (List.mem_reverse.1 hb)
  · rintro ⟨pre, post, rfl, hpost⟩
    refine ⟨post.reverse, pre.reverse, ?_, fun b hb => ?_⟩
    · rw [List.reverse_append, List.reverse_cons, List.append_assoc]
      rfl
    · rw [hpost b (List.mem_reverse.1 hb), Bool.not_false]

namespace Comment

/-- The text of the last comment that is anchored at exactly this field. -/
def textFor? (cs : List Comment) (table field : Text) : Option Text :=
  ((cs.filter fun c => c.kind = .inline ∧ c.anchor = ⟨some table, some field⟩).getLast?).map (·.text)

/-- The comment is the last one that has the key of the field. -/
def IsLastWithKey (cs : List Comment) (table field : Text) (c : Comment) : Prop :=
  c.anchor.inlineKey? = some (Anchor.key table field) ∧
    ∃ pre post, cs = pre ++ c :: post ∧
      ∀ d ∈ post, d.anchor.inlineKey? ≠ some (Anchor.key table field)

/-- Line `i`, which is `l`, is left as it is, or takes the last comment that is anchored at exactly
    the field it starts with, in the current table. -/
def TakesOwn (cs : List Comment) (ls : List Line) (i : Nat) (l l' : Line) : Prop :=
  l' = l ∨ ∃ table ∈ Line.tableAt? ls i, ∃ field ∈ Line.fieldName? (Text.trim l),
    ∃ comment ∈ textFor? cs table field, l' = Line.withComment l comment

/-- Line `i`, which is `l` and has no comment mark, starts with a field, and the last comment with
    the key of this field is meant for a place confused with it; and no comment of the field itself
    would give the same line. -/
def Misleads (cs : List Comment) (ls : List Line) (i : Nat) (l : Line) (c : Comment) : Prop :=
  Text.holds Line.commentMark l = false ∧
    ∃ table ∈ Line.tableAt? ls i, ∃ field ∈ Line.fieldName? (Text.trim l),
      c.anchor.IsConfused ⟨some table, some field⟩ ∧ IsLastWithKey cs table field c ∧
        ∀ own ∈ textFor? cs table field, Line.withComment l own ≠ Line.withComment l c.text

instance (cs : List Comment) (ls : List Line) (i : Nat) (l l' : Line) :
    Decidable (TakesOwn cs ls i l l') :=
  inferInstanceAs (Decidable (_ ∨ _))

variable {cs : List Comment} {ls : List Line} {i : Nat} {l : Line} {t : Text} {table field : Text}
  {c : Comment}

/-- Of comments at ends of lines, the last one with the key is what a field finds. -/
theorem inlineText?_eq_of_isLastWithKey (hcs : ∀ c ∈ cs, c.kind = .inline)
    (hc : IsLastWithKey cs table field c) : inlineText? cs table field = some c.text := by
  obtain ⟨hkey, pre, post, rfl, hpost⟩ := hc
  refine Option.map_eq_some_iff.2 ⟨c, getLast?_filter_eq_some_iff.2 ⟨?_, pre, post, rfl, ?_⟩, rfl⟩
  · exact decide_eq_true ⟨hcs c (List.mem_append_right pre List.mem_cons_self), hkey⟩
  · exact fun d hd => decide_eq_false fun h => hpost d hd h.2

/-- The text for a field comes from the last comment with its key. -/
theorem exists_isLastWithKey (hcs : ∀ c ∈ cs, c.kind = .inline) {text : Text}
    (h : inlineText? cs table field = some text) :
    ∃ c, IsLastWithKey cs table field c ∧ c.text = text := by
  obtain ⟨c, hc, htext⟩ := Option.map_eq_some_iff.1 h
  obtain ⟨hkey, pre, post, rfl, hpost⟩ := getLast?_filter_eq_some_iff.1 hc
  refine ⟨c, ⟨(of_decide_eq_true hkey).2, pre, post, rfl, fun d hd hdkey => ?_⟩, htext⟩
  have hinline := hcs d (List.mem_append_right pre (List.mem_cons_of_mem c hd))
  exact of_decide_eq_false (hpost d hd) ⟨hinline, hdkey⟩

/-- The last comment with the key is the last one of the field, if it is one of the field at all. -/
theorem textFor?_eq_of_isLastWithKey (hcs : ∀ c ∈ cs, c.kind = .inline)
    (hc : IsLastWithKey cs table field c) (ha : c.anchor = ⟨some table, some field⟩) :
    textFor? cs table field = some c.text := by
  obtain ⟨-, pre, post, rfl, hpost⟩ := hc
  refine Option.map_eq_some_iff.2 ⟨c, getLast?_filter_eq_some_iff.2 ⟨?_, pre, post, rfl, ?_⟩, rfl⟩
  · exact decide_eq_true ⟨hcs c (List.mem_append_right pre List.mem_cons_self), ha⟩
  · refine fun d hd => decide_eq_false fun h => hpost d hd ?_
    exact Anchor.inlineKey?_eq_some_key_iff.2 (.inl h.2)

/-! ## One line -/

/-- A line without a comment mark takes the comment for the field that it declares, in the table
    that it stands in. -/
theorem ending?_eq_some_iff {text : Text} : ending? cs ls i l = some text ↔
    Text.holds Line.commentMark l = false ∧ ∃ table ∈ Line.tableAt? ls i,
      ∃ field ∈ Line.fieldName? (Text.trim l), inlineText? cs table field = some text := by
  rw [ending?]
  split
  · next hmark =>
    refine iff_of_false (Option.some_ne_none text).symm fun h => ?_
    exact Bool.noConfusion (h.1.symm.trans hmark)
  · next hmark =>
    rw [Option.bind_eq_some_iff, and_iff_right (Bool.eq_false_iff.2 hmark)]
    exact exists_congr fun table => and_congr_right fun _ => Option.bind_eq_some_iff

/-- A comment makes a line longer. -/
theorem withComment_ne (l : Line) (comment : Text) : Line.withComment l comment ≠ l := by
  obtain ⟨body, c, heq, rfl | rfl, -⟩ := Line.exists_withComment_eq l comment
  · rw [heq]
    exact fun h => List.cons_ne_nil ' ' c (List.append_right_eq_self.1 h)
  · rw [heq]
    -- A space would stand in the place of the carriage return.
    exact fun h => absurd (List.cons.inj (List.append_cancel_left h)).1 (by decide)

/-- The comment at the end of a line does not break the line. -/
theorem newline_not_mem_elim_ending? (hcs : ∀ c ∈ cs, '\n' ∉ c.text) (hl : '\n' ∉ l) :
    '\n' ∉ (ending? cs ls i l).elim l (Line.withComment l) := by
  cases hending : ending? cs ls i l with
  | none => exact hl
  | some text =>
    obtain ⟨-, table, -, field, -, htext⟩ := ending?_eq_some_iff.1 hending
    obtain ⟨c, hc, -, -, rfl⟩ := exists_of_inlineText?_eq_some htext
    exact Merging.newline_not_mem_withComment hl (hcs c hc)

/-- A line that is misled takes the comment that misleads it. -/
theorem ending?_eq_of_misleads (hcs : ∀ c ∈ cs, c.kind = .inline) (h : Misleads cs ls i l c) :
    ending? cs ls i l = some c.text := by
  obtain ⟨hmark, table, htable, field, hfield, -, hlast, -⟩ := h
  exact ending?_eq_some_iff.2 ⟨hmark, table, htable, field, hfield,
    inlineText?_eq_of_isLastWithKey hcs hlast⟩

/-- A line takes nothing but its own exactly if no comment misleads it. -/
theorem takesOwn_iff_not_misleads (hcs : ∀ c ∈ cs, c.kind = .inline) :
    TakesOwn cs ls i l ((ending? cs ls i l).elim l (Line.withComment l)) ↔
      ¬ ∃ c, Misleads cs ls i l c := by
  constructor
  · rintro hown ⟨c, hc⟩
    rw [ending?_eq_of_misleads hcs hc] at hown
    obtain ⟨-, table, htable, field, hfield, -, -, hother⟩ := hc
    rcases hown with hsame | ⟨table', htable', field', hfield', own, howner, hline⟩
    · exact withComment_ne l c.text hsame
    · obtain rfl := Option.mem_unique htable htable'
      obtain rfl := Option.mem_unique hfield hfield'
      exact hother own howner hline.symm
  · intro hnot
    cases hending : ending? cs ls i l with
    | none => exact .inl rfl
    | some text =>
      obtain ⟨hmark, table, htable, field, hfield, htext⟩ := ending?_eq_some_iff.1 hending
      obtain ⟨c, hlast, rfl⟩ := exists_isLastWithKey hcs htext
      refine .inr ⟨table, htable, field, hfield, ?_⟩
      rcases Anchor.inlineKey?_eq_some_key_iff.1 hlast.1 with ha | hconfused
      · exact ⟨c.text, textFor?_eq_of_isLastWithKey hcs hlast ha, rfl⟩
      · -- The comment is meant for another place, so an own one has to give the same line.
        by_contra hother
        refine hnot ⟨c, hmark, table, htable, field, hfield, hconfused, hlast, ?_⟩
        exact fun own howner hline => hother ⟨own, howner, hline.symm⟩

/-! ## The whole text -/

/-- Comments for ends of lines leave the lines apart, each with the comment that it takes. -/
theorem lines_merge_of_inline (hcs : ∀ c ∈ cs, c.kind = .inline ∧ '\n' ∉ c.text) :
    Text.lines (merge cs t) = (Text.lines t).zipIdx.map fun x =>
      (ending? cs (Text.lines t) x.2 x.1).elim x.1 (Line.withComment x.1) := by
  have hinline : ∀ c ∈ cs, c.kind = .inline := fun c hc => (hcs c hc).1
  have hof : ∀ kind ≠ .inline, textsOf cs kind = [] := fun kind hkind =>
    textsOf_eq_nil fun c hc h => hkind (h.symm.trans (hinline c hc))
  have hrun : Merging.start.run cs (Text.lines t) = (Text.lines t).zipIdx.map fun x =>
      (ending? cs (Text.lines t) x.2 x.1).elim x.1 (Line.withComment x.1) := by
    rw [Merging.run_start, List.map_eq_flatMap]
    exact List.flatMap_congr fun x _ => emitted_of_inline hinline _ x.2 x.1
  rw [merge_eq_unlines_mergePieces, mergePieces, hof .header (by decide), hof .footer (by decide),
    hrun]
  refine (congrArg (fun ps => Text.lines (Text.unlines ps)) (List.append_nil _)).trans
    (Text.lines_unlines_of_forall ?_ fun m hm => ?_)
  · exact fun h => Text.lines_ne_nil t (List.zipIdx_eq_nil_iff.1 (List.map_eq_nil_iff.1 h))
  · obtain ⟨x, hx, rfl⟩ := List.mem_map.1 hm
    exact newline_not_mem_elim_ending? (fun c hc => (hcs c hc).2)
      (Text.newline_not_mem (List.fst_mem_of_mem_zipIdx hx))

/-- Each line is left as it is, or takes the last comment that is anchored at exactly its field,
    unless a comment misleads it; and then it takes this one. -/
theorem takesOwn_merge_iff (hcs : ∀ c ∈ cs, c.kind = .inline ∧ '\n' ∉ c.text) (t : Text) :
    (Text.lines (merge cs t)).length = (Text.lines t).length ∧
      ∀ i l l', (Text.lines t)[i]? = some l → (Text.lines (merge cs t))[i]? = some l' →
        (TakesOwn cs (Text.lines t) i l l' ↔ ¬ ∃ c, Misleads cs (Text.lines t) i l c) ∧
          ∀ c, Misleads cs (Text.lines t) i l c → l' = Line.withComment l c.text := by
  have hinline : ∀ c ∈ cs, c.kind = .inline := fun c hc => (hcs c hc).1
  rw [lines_merge_of_inline hcs]
  refine ⟨by rw [List.length_map, List.length_zipIdx], fun i l l' hl hl' => ?_⟩
  obtain rfl : (ending? cs (Text.lines t) i l).elim l (Line.withComment l) = l' := by
    rw [List.getElem?_map, List.getElem?_zipIdx, hl, Nat.zero_add] at hl'
    exact Option.some.inj hl'
  refine ⟨takesOwn_iff_not_misleads hinline, fun c hc => ?_⟩
  rw [ending?_eq_of_misleads hinline hc]
  rfl

/-- A comment on field `b.c` of table `a` is put at field `c` of table `a.b` as well, where no comment
    is meant for. -/
theorem takesOwn_merge_dotted :
    let cs := [Comment.inline "// x".toList (some "a".toList) (some "b.c".toList)]
    let t := "Table \"a\" \x7b\n  \"b.c\" int\n\x7d\nTable \"a.b\" \x7b\n  \"c\" int\n\x7d".toList
    (∀ c ∈ cs, c.kind = .inline ∧ '\n' ∉ c.text) ∧
      TakesOwn cs (Text.lines t) 1 "  \"b.c\" int".toList "  \"b.c\" int // x".toList ∧
      ∃ c, Misleads cs (Text.lines t) 4 "  \"c\" int".toList c := by
  intro cs t
  have hcs : ∀ c ∈ cs, c.kind = .inline ∧ '\n' ∉ c.text := by decide
  obtain ⟨-, hlines⟩ := takesOwn_merge_iff hcs t
  refine ⟨hcs, by decide +kernel, ?_⟩
  obtain ⟨howned, -⟩ := hlines 4 "  \"c\" int".toList "  \"c\" int // x".toList
    (by decide +kernel) (by decide +kernel)
  exact not_not.1 (mt howned.2 (by decide +kernel))

/-- Not every line takes nothing but its own. -/
theorem not_forall_takesOwn :
    ¬ ∀ (cs : List Comment) (t : Text), (∀ c ∈ cs, c.kind = .inline ∧ '\n' ∉ c.text) →
      ∀ i l l', (Text.lines t)[i]? = some l → (Text.lines (merge cs t))[i]? = some l' →
        TakesOwn cs (Text.lines t) i l l' := by
  intro h
  have hown := h [.inline "// x".toList (some "a".toList) (some "b.c".toList)]
    "Table \"a\" \x7b\n  \"b.c\" int\n\x7d\nTable \"a.b\" \x7b\n  \"c\" int\n\x7d".toList
    (by decide) 4 "  \"c\" int".toList "  \"c\" int // x".toList
    (by decide +kernel) (by decide +kernel)
  exact absurd hown (by decide +kernel)

end Comment

end DbmlRestore
