import DbmlRestore.Proofs.Comment.Fields

/-!
# The comments that a text asks for

When comments are put back they are sorted by what they are for (`Bucket`): the schema's header and
footer, a table, the body of a table, and for ends of lines the key of a field. A text asks for few
of the buckets (`Bucket.IsAsked`): those of its tables, and the keys of the fields that can take a
comment (`Line.openFields`). Nothing else of the comments is looked at, and of those with one key
only the last:

* lists of comments that agree on this give the same text (`Comment.merge_congr`), whatever their
  order across the buckets;
* a comment that does not apply, being in no bucket that is asked for, can be left out, or put in
  (`Comment.merge_filter_of_not_applies`).

A comment for a table that the text does not have should not apply. This is so for the comments on a
table and inside of one. But a comment for the end of a line is looked up by its key alone, and
applies if the key is also that of a field of the text (`Line.IsMistakable`). The texts where this
can happen are exactly those where comments for missing tables cannot be left out
(`Comment.merge_filter_isElsewhere_iff`).
-/

namespace DbmlRestore

namespace Line

/-- The tables that a text has headers of. -/
def tables (ls : List Line) : List Text :=
  ls.filterMap fun l => (tableHeader? (Text.trim l)).map (·.table)

/-- The fields whose lines can take a comment, as they have no comment mark, with the tables that
    they are in. -/
def openFields (ls : List Line) : List (Text × Text) :=
  ls.zipIdx.filterMap fun (l, i) =>
    if Text.holds commentMark l then none
    else (tableAt? ls i).bind fun table => (fieldName? (Text.trim l)).map (table, ·)

variable {ls : List Line} {i : Nat} {l : Line} {table field : Text}

/-- The table of a header in the text is asked for. -/
theorem mem_tables {header : TableHeader} (hl : l ∈ ls)
    (hheader : tableHeader? (Text.trim l) = some header) : header.table ∈ tables ls :=
  List.mem_filterMap.2 ⟨l, hl, Option.map_eq_some_iff.2 ⟨header, hheader, rfl⟩⟩

/-- The table that a line is in has a header. -/
theorem mem_tables_of_tableAt? (h : tableAt? ls i = some table) : table ∈ tables ls := by
  obtain ⟨k, -, hk⟩ := Option.bind_eq_some_iff.1 h
  obtain ⟨l, hl, hheader⟩ := Option.bind_eq_some_iff.1 hk
  exact List.mem_filterMap.2 ⟨l, List.mem_of_getElem? hl, hheader⟩

/-- The fields that are asked for are those of the lines without a comment mark inside of a table.
    -/
theorem mem_openFields : (table, field) ∈ openFields ls ↔
    ∃ i l, ls[i]? = some l ∧ Text.holds commentMark l = false ∧
      tableAt? ls i = some table ∧ fieldName? (Text.trim l) = some field := by
  rw [openFields, List.mem_filterMap]
  constructor
  · rintro ⟨⟨l, i⟩, hl, h⟩
    obtain ⟨hmark, h⟩ := Option.ite_none_left_eq_some.1 h
    obtain ⟨_, htable, h⟩ := Option.bind_eq_some_iff.1 h
    obtain ⟨_, hfield, h⟩ := Option.map_eq_some_iff.1 h
    obtain ⟨rfl, rfl⟩ := Prod.mk.inj h
    exact ⟨i, l, List.mem_zipIdx_iff_getElem?.1 hl, Bool.eq_false_iff.2 hmark, htable, hfield⟩
  · rintro ⟨i, l, hl, hmark, htable, hfield⟩
    refine ⟨(l, i), List.mem_zipIdx_iff_getElem?.2 hl, ?_⟩
    simp [hmark, htable, hfield]

end Line

/-! ## Buckets -/

/-- What comments are sorted by. -/
inductive Bucket where
  /-- The header of the schema. -/
  | header
  /-- The footer of the schema. -/
  | footer
  /-- A table, above its headers. -/
  | table (name : Text)
  /-- A table, inside of it. -/
  | body (name : Text)
  /-- The end of the lines of the fields with a key. -/
  | ending (key : Text)
deriving Repr, DecidableEq

namespace Bucket

/-- The comment goes into the bucket. -/
def Takes : Bucket → Comment → Prop
  | .header, c => c.kind = .header
  | .footer, c => c.kind = .footer
  | .table name, c => c.kind = .table ∧ c.anchor.table = some name
  | .body name, c => c.kind = .field ∧ c.anchor.table = some name
  | .ending key, c => c.kind = .inline ∧ c.anchor.inlineKey? = some key

instance : (b : Bucket) → DecidablePred b.Takes
  | .header, c => inferInstanceAs (Decidable (c.kind = .header))
  | .footer, c => inferInstanceAs (Decidable (c.kind = .footer))
  | .table name, c =>
    inferInstanceAs (Decidable (c.kind = .table ∧ c.anchor.table = some name))
  | .body name, c =>
    inferInstanceAs (Decidable (c.kind = .field ∧ c.anchor.table = some name))
  | .ending key, c =>
    inferInstanceAs (Decidable (c.kind = .inline ∧ c.anchor.inlineKey? = some key))

/-- The texts of the comments in the bucket, in order. -/
def texts (b : Bucket) (cs : List Comment) : List Text :=
  (cs.filter (b.Takes ·)).map (·.text)

/-- A text looks into the bucket. -/
def IsAsked (ls : List Line) : Bucket → Prop
  | .header => True
  | .footer => True
  | .table name => name ∈ Line.tables ls
  | .body name => name ∈ Line.tables ls
  | .ending key => ∃ x ∈ Line.openFields ls, Anchor.key x.1 x.2 = key

variable {b : Bucket} {cs : List Comment}

/-- Comments outside of the bucket can be left out. -/
theorem texts_filter {p : Comment → Bool} (h : ∀ c ∈ cs, p c = false → ¬ b.Takes c) :
    b.texts (cs.filter p) = b.texts cs := by
  rw [texts, texts, List.filter_filter]
  refine congrArg (List.map _) (List.filter_congr fun c hc => ?_)
  cases hp : p c with
  | false => rw [Bool.and_false, decide_eq_false (h c hc hp)]
  | true => rw [Bool.and_true]

end Bucket

namespace Comment

/-- The text for a field is the last one in its bucket. -/
theorem inlineText?_eq_getLast? (cs : List Comment) (table field : Text) :
    inlineText? cs table field = ((Bucket.ending (Anchor.key table field)).texts cs).getLast? :=
  List.getLast?_map.symm

/-! ## Lists that agree -/

/-- The lists give the same for all that a text asks for: the comments of the schema's header and
    footer, those on each table and inside of it, and for each field that can take a comment the
    last one with its key. -/
structure Agree (ls : List Line) (cs cs' : List Comment) : Prop where
  header : textsOf cs .header = textsOf cs' .header
  footer : textsOf cs .footer = textsOf cs' .footer
  table : ∀ table ∈ Line.tables ls, textsOn cs .table table = textsOn cs' .table table
  body : ∀ table ∈ Line.tables ls, textsOn cs .field table = textsOn cs' .field table
  ending : ∀ x ∈ Line.openFields ls, inlineText? cs x.1 x.2 = inlineText? cs' x.1 x.2

variable {cs cs' : List Comment} {ls : List Line} {i : Nat} {l : Line} {t : Text} {c : Comment}
  {p : Comment → Bool}

/-- It is enough to have the same in all buckets that are asked for. -/
theorem Agree.of_texts (h : ∀ b, Bucket.IsAsked ls b → b.texts cs = b.texts cs') :
    Agree ls cs cs' where
  header := h .header trivial
  footer := h .footer trivial
  table table htable := h (.table table) htable
  body table htable := h (.body table) htable
  ending x hx := by
    rw [inlineText?_eq_getLast?, inlineText?_eq_getLast?, h (.ending _) ⟨x, hx, rfl⟩]

/-- The comments above a line are looked up in the bucket of its table only. -/
theorem textsAbove_congr (h : Agree ls cs cs') (hl : l ∈ ls) :
    textsAbove cs l = textsAbove cs' l := by
  rw [textsAbove, textsAbove]
  split
  · next header hheader => exact h.table _ (Line.mem_tables hl hheader)
  · rfl

/-- The comments inside of a table are looked up in its bucket only. -/
theorem textsInside_congr (h : Agree ls cs cs') (i : Nat) :
    textsInside cs ls i = textsInside cs' ls i := by
  rw [textsInside, textsInside]
  split
  · refine List.flatMap_congr fun table htable => h.body table ?_
    exact Line.mem_tables_of_tableAt? (Option.mem_toList.1 htable)
  · rfl

/-- The comment at the end of a line is looked up in the bucket of its field only. -/
theorem ending?_congr (h : Agree ls cs cs') (hl : ls[i]? = some l) :
    ending? cs ls i l = ending? cs' ls i l := by
  ext text
  rw [ending?_eq_some_iff, ending?_eq_some_iff]
  refine and_congr_right fun hmark => exists_congr fun table => and_congr_right fun htable =>
    exists_congr fun field => and_congr_right fun hfield => ?_
  rw [h.ending _ (Line.mem_openFields.2 ⟨i, l, hl, hmark, htable, hfield⟩)]

/-- What a line becomes depends on the buckets that are asked for. -/
theorem emitted_congr (h : Agree ls cs cs') (hl : ls[i]? = some l) :
    emitted cs ls i l = emitted cs' ls i l := by
  rw [emitted, textsAbove_congr h (List.mem_of_getElem? hl), textsInside_congr h,
    ending?_congr h hl, emitted]

/-- Lists of comments that agree give the same text. -/
theorem merge_congr (h : Agree (Text.lines t) cs cs') : merge cs t = merge cs' t := by
  have hrun : Merging.start.run cs (Text.lines t) = Merging.start.run cs' (Text.lines t) := by
    rw [Merging.run_start, Merging.run_start]
    exact List.flatMap_congr fun x hx => emitted_congr h (List.mem_zipIdx_iff_getElem?.1 hx)
  rw [merge_eq_unlines_mergePieces, merge_eq_unlines_mergePieces, mergePieces, mergePieces,
    h.header, h.footer, hrun]

/-! ## Comments that apply -/

/-- The comment is in a bucket that the text asks for. -/
def Applies (ls : List Line) (c : Comment) : Prop :=
  ∃ b, Bucket.IsAsked ls b ∧ b.Takes c

/-- The comment is for a table that the text does not have. -/
def IsElsewhere (ls : List Line) (c : Comment) : Prop :=
  c.kind ∈ [.table, .field, .inline] ∧ ∃ table ∈ c.anchor.table, table ∉ Line.tables ls

instance (ls : List Line) : DecidablePred (IsElsewhere ls) := fun _ =>
  inferInstanceAs (Decidable (_ ∧ _))

/-- Comments that do not apply can be left out. -/
theorem merge_filter_of_not_applies (h : ∀ c ∈ cs, p c = false → ¬ Applies (Text.lines t) c) :
    merge (cs.filter p) t = merge cs t :=
  merge_congr (.of_texts fun b hb => Bucket.texts_filter fun c hc hp htakes =>
    h c hc hp ⟨b, hb, htakes⟩)

/-- If no comment applies, the text stays as it is. -/
theorem merge_of_not_applies (h : ∀ c ∈ cs, ¬ Applies (Text.lines t) c) : merge cs t = t := by
  rw [← merge_filter_of_not_applies (p := fun _ => false) fun c hc _ => h c hc, List.filter_false]
  rfl

end Comment

/-! ## Comments for tables that are missing -/

/-- A field can take a comment, and is confused with one of a table that the text does not have. -/
def Line.IsMistakable (ls : List Line) : Prop :=
  ∃ x ∈ openFields ls, ∃ a : Anchor, a.IsConfused ⟨some x.1, some x.2⟩ ∧
    ∃ table ∈ a.table, table ∉ tables ls

namespace Comment

variable {cs : List Comment} {ls : List Line} {t : Text} {c : Comment}

/-- A comment for a missing table can only apply by being mistaken for another. -/
theorem IsElsewhere.not_applies (hc : IsElsewhere ls c) (hls : ¬ Line.IsMistakable ls) :
    ¬ Applies ls c := by
  obtain ⟨hkind, table, htable, hmissing⟩ := hc
  rintro ⟨b, hb, htakes⟩
  cases b with
  -- The comments of the schema are for no table.
  | header => exact absurd hkind (htakes ▸ by decide)
  | footer => exact absurd hkind (htakes ▸ by decide)
  | table table' => exact hmissing (Option.mem_unique htable htakes.2 ▸ hb)
  | body table' => exact hmissing (Option.mem_unique htable htakes.2 ▸ hb)
  | ending key =>
    obtain ⟨x, hx, rfl⟩ := hb
    -- With the key of a field the comment is for this field, or for one that is confused with it.
    rcases Anchor.inlineKey?_eq_some_key_iff.1 htakes.2 with ha | hconfused
    · obtain ⟨i, l, -, -, hat, -⟩ := Line.mem_openFields.1 hx
      rw [ha, Option.mem_some_iff] at htable
      exact hmissing (htable ▸ Line.mem_tables_of_tableAt? hat)
    · exact hls ⟨x, hx, c.anchor, hconfused, table, htable, hmissing⟩

/-- In a text where a field can be mistaken, some comment for a missing table is put at its line. -/
theorem exists_isElsewhere_merge_ne (h : Line.IsMistakable (Text.lines t)) :
    ∃ c, IsElsewhere (Text.lines t) c ∧ merge [c] t ≠ t := by
  obtain ⟨⟨table, field⟩, hx, a, hconfused, helsewhere⟩ := h
  obtain ⟨i, l, hl, hmark, htable, hfield⟩ := Line.mem_openFields.1 hx
  let c : Comment := .inline "// x".toList a.table a.field
  -- The comment is for the other field, and has the key of this one.
  have hcs : ∀ d ∈ [c], d.kind = .inline ∧ '\n' ∉ d.text := by
    rw [List.forall_mem_singleton]
    exact ⟨rfl, show '\n' ∉ "// x".toList by decide⟩
  have hlast : IsLastWithKey [c] table field c :=
    ⟨Anchor.inlineKey?_eq_some_key_iff.2 (.inr hconfused), [], [], rfl, nofun⟩
  have htext : inlineText? [c] table field = some c.text :=
    inlineText?_eq_of_isLastWithKey (fun d hd => (hcs d hd).1) hlast
  have hending : ending? [c] (Text.lines t) i l = some c.text :=
    ending?_eq_some_iff.2 ⟨hmark, table, htable, field, hfield, htext⟩
  refine ⟨c, ⟨show CommentKind.inline ∈ _ by decide, helsewhere⟩, fun hsame => ?_⟩
  have hline := congrArg (·[i]?) (lines_merge_of_inline (t := t) hcs)
  simp only [hsame, List.getElem?_map, List.getElem?_zipIdx, hl, Option.map_some, Nat.zero_add,
    hending] at hline
  exact withComment_ne l c.text (Option.some.inj hline).symm

/-- Comments for missing tables can be left out exactly if no field can be mistaken. -/
theorem merge_filter_isElsewhere_iff :
    (∀ (cs : List Comment) (p : Comment → Bool),
      (∀ c ∈ cs, p c = false → IsElsewhere (Text.lines t) c) →
        merge (cs.filter p) t = merge cs t) ↔ ¬ Line.IsMistakable (Text.lines t) := by
  constructor
  · intro hsame hmistakable
    obtain ⟨c, helsewhere, hne⟩ := exists_isElsewhere_merge_ne hmistakable
    refine hne (hsame [c] (fun _ => false) fun d hd _ => ?_).symm
    rwa [List.mem_singleton.1 hd]
  · intro hnot cs p hcs
    exact merge_filter_of_not_applies fun c hc hp => (hcs c hc hp).not_applies hnot

/-- What a merged text depends on. Lists of comments that agree on what the text asks for give the
    same one, so it does not matter how the buckets are interleaved. Comments that do not apply can
    be left out, and if none applies the text stays as it is. Those for tables that the text does
    not have can be left out exactly if no field can be mistaken. -/
theorem merge_depends_on_asked (t : Text) :
    (∀ cs cs', Agree (Text.lines t) cs cs' → merge cs t = merge cs' t) ∧
      (∀ cs cs', (∀ b : Bucket, b.texts cs = b.texts cs') → merge cs t = merge cs' t) ∧
      (∀ cs p, (∀ c ∈ cs, p c = false → ¬ Applies (Text.lines t) c) →
        merge (cs.filter p) t = merge cs t) ∧
      (∀ cs, (∀ c ∈ cs, ¬ Applies (Text.lines t) c) → merge cs t = t) ∧
      ((∀ cs p, (∀ c ∈ cs, p c = false → IsElsewhere (Text.lines t) c) →
        merge (cs.filter p) t = merge cs t) ↔ ¬ Line.IsMistakable (Text.lines t)) :=
  ⟨fun _ _ h => merge_congr h, fun _ _ h => merge_congr (.of_texts fun b _ => h b),
    fun _ _ h => merge_filter_of_not_applies h, fun _ h => merge_of_not_applies h,
    merge_filter_isElsewhere_iff⟩

/-- A list of comments in another order, without the one that is overwritten, and with one for a
    table that is missing. -/
theorem merge_depends_on_asked_shuffled :
    let t := "Table a \x7b\n  \"id\" int\n\x7d".toList
    let a := "a".toList
    let old := Comment.inline "// old".toList (some a) (some "id".toList)
    let new := Comment.inline "// new".toList (some a) (some "id".toList)
    let on := Comment.onTable "// on".toList (some a)
    let gone := Comment.inBody "// gone".toList (some "legacy".toList)
    let top := Comment.header "// top".toList
    Agree (Text.lines t) [old, top, new, on] [on, new, gone, top] ∧
      merge [old, top, new, on] t = merge [on, new, gone, top] t := by
  intro t a old new on gone top
  have hagree : Agree (Text.lines t) [old, top, new, on] [on, new, gone, top] :=
    ⟨by decide, by decide, by decide +kernel, by decide +kernel, by decide +kernel⟩
  exact ⟨hagree, (merge_depends_on_asked t).1 _ _ hagree⟩

/-- A comment on field `b.c` of table `a` cannot be left out where there is no such table, but one
    of the name `a.b` with a field `c`. -/
theorem not_forall_merge_filter_isElsewhere :
    ¬ ∀ (t : Text) (cs : List Comment) (p : Comment → Bool),
      (∀ c ∈ cs, p c = false → IsElsewhere (Text.lines t) c) →
        merge (cs.filter p) t = merge cs t := by
  intro h
  have hsame := h "Table \"a.b\" \x7b\n  \"c\" int\n\x7d".toList
    [.inline "// x".toList (some "a".toList) (some "b.c".toList)] (fun _ => false)
    (by decide +kernel)
  exact absurd hsame (by decide +kernel)

end Comment

end DbmlRestore
