import DbmlRestore.Block
import DbmlRestore.Comment.Merge
import DbmlRestore.Proofs.Text.Lines

/-!
# Forms of lines

What a line is, is decided by the first character of its trimmed form: a letter
for the three headers, a slash for a comment, a quote for a field. So a comment is
no header (`IsRemark.opened?_eq_none`), and neither is a field.

A line is *bare* if it holds no comment mark and opens no block comment: these are
the lines of a regenerated schema. Merging puts comments between bare lines and at
the end of the lines of fields. A comment on a line of its own, without braces, is a
*remark* (`IsRemark`); a line that took a comment at its end is *dressed*
(`Dressed`). A line that goes on where the line of a field ended (`Continues`), be it with a
comment or not, answers every question about headers, fields and braces as before.
-/

namespace DbmlRestore

namespace Text

/-! ## Searching -/

theorem holds_eq_true_iff {sub t : Text} : holds sub t = true ↔ sub <:+: t := by
  induction t with
  | nil => rw [holds, List.isEmpty_iff, List.infix_nil]
  | cons c t ih =>
    rw [holds, Bool.or_eq_true, ih, List.isPrefixOf_iff_prefix, List.infix_cons_iff]

/-- The mark of a comment needs two slashes side by side, so a space between two
    texts makes none. -/
theorem holds_commentMark_append_space (s t : Text) :
    holds Line.commentMark (s ++ ' ' :: t) =
      (holds Line.commentMark s || holds Line.commentMark t) := by
  induction s with
  | nil => rfl
  | cons c s ih =>
    rw [List.cons_append, holds, ih, holds, Bool.or_assoc]
    congr 1
    cases s with
    | nil => cases hc : '/' == c <;> simp [Line.commentMark, List.isPrefixOf, hc]
    | cons d s => rfl

/-- Up to a space, a text without the mark of a comment is passed over. -/
theorem cutBefore?_append_space {s : Text} (hs : holds Line.commentMark s = false) (t : Text) :
    cutBefore? Line.commentMark (s ++ ' ' :: t) =
      (cutBefore? Line.commentMark t).map fun (before, rest) => (s ++ ' ' :: before, rest) := by
  induction s with
  | nil => rfl
  | cons c s ih =>
    rw [holds, Bool.or_eq_false_iff] at hs
    have hp : Line.commentMark.isPrefixOf (c :: (s ++ ' ' :: t)) = false := by
      cases s with
      | nil => cases hc : '/' == c <;> simp [Line.commentMark, List.isPrefixOf, hc]
      | cons d s => exact hs.1
    rw [List.cons_append, cutBefore?, hp, if_neg Bool.false_ne_true, ih hs.2, Option.map_map]
    rfl

theorem cutBefore?_eq_none {s : Text} (hs : holds Line.commentMark s = false) :
    cutBefore? Line.commentMark s = none := by
  induction s with
  | nil => rfl
  | cons c s ih =>
    rw [holds, Bool.or_eq_false_iff] at hs
    rw [cutBefore?, hs.1, if_neg Bool.false_ne_true, ih hs.2, Option.map_none]

theorem takeWhile_ne_append {q : Char} {s : Text} (hs : q ∉ s) (t : Text) :
    (s ++ q :: t).takeWhile (· != q) = s := by
  have hpos : ∀ c ∈ s, (c != q) = true := fun c hc => bne_iff_ne.2 fun e => hs (e ▸ hc)
  rw [List.takeWhile_append_of_pos hpos, List.takeWhile_cons_of_neg (by simp), List.append_nil]

theorem dropWhile_ne_append {q : Char} {s : Text} (hs : q ∉ s) (t : Text) :
    (s ++ q :: t).dropWhile (· != q) = q :: t := by
  have hpos : ∀ c ∈ s, (c != q) = true := fun c hc => bne_iff_ne.2 fun e => hs (e ▸ hc)
  rw [List.dropWhile_append_of_pos hpos, List.dropWhile_cons_of_neg (by simp)]

/-! ## Trimming -/

/-- Blanks put after a text make no difference. -/
theorem trim_append_of_blank {t : Text} (ht : ∀ c ∈ t, isBlank c = true) (s : Text) :
    trim (s ++ t) = trim s := by
  rw [trim, trim, List.dropWhile_append]
  split
  · next h =>
    rw [List.isEmpty_iff] at h
    rw [h, List.dropWhile_eq_nil_iff.2 ht]
  · exact dropEndWhile_append_of_forall _ ht

/-- What trimming leaves is a part of the text. -/
theorem trim_infix (t : Text) : trim t <:+: t := by
  obtain ⟨u, hu, -⟩ := exists_append_dropEndWhile isBlank (t.dropWhile isBlank)
  have hp : trim t <+: t.dropWhile isBlank := ⟨u, hu.symm⟩
  exact hp.isInfix.trans (List.dropWhile_suffix isBlank).isInfix

/-- Trimming cuts a text into blanks, what is left, and blanks. -/
theorem exists_trim_eq (t : Text) :
    ∃ s u, t = s ++ trim t ++ u ∧ (∀ c ∈ s, isBlank c = true) ∧ ∀ c ∈ u, isBlank c = true := by
  obtain ⟨u, hu, hb⟩ := exists_append_dropEndWhile isBlank (t.dropWhile isBlank)
  refine ⟨t.takeWhile isBlank, u, ?_, fun c hc => List.mem_takeWhile_imp hc, hb⟩
  rw [List.append_assoc, trim, ← hu, List.takeWhile_append_dropWhile]

/-- The first character that trimming leaves is no blank. -/
theorem isBlank_of_trim_eq_cons {t u : Text} {c : Char} (h : trim t = c :: u) :
    isBlank c = false := by
  obtain ⟨v, hv, -⟩ := exists_append_dropEndWhile isBlank (t.dropWhile isBlank)
  rw [show dropEndWhile isBlank (t.dropWhile isBlank) = c :: u from h, List.cons_append] at hv
  have := List.head_dropWhile_not isBlank (by rw [hv]; exact List.cons_ne_nil _ _ :
    t.dropWhile isBlank ≠ [])
  simpa only [hv, List.head_cons] using this

/-- If the first text is not all blanks, trimming the two together keeps the whole of
    what trimming the first one leaves. -/
theorem trim_append_of_ne_nil {s : Text} (hs : trim s ≠ []) (t : Text) :
    ∃ u, trim (s ++ t) = trim s ++ u := by
  obtain ⟨a, b, hab, ha, hb⟩ := exists_trim_eq s
  obtain ⟨c, u, hc⟩ := List.exists_cons_of_ne_nil hs
  have hnb := isBlank_of_trim_eq_cons hc
  rw [hc] at hab ⊢
  rw [hab, List.append_assoc, List.append_assoc, trim_append_of_blank_left ha]
  rw [List.cons_append, trim_cons hnb]
  by_cases h : ∃ x ∈ b ++ t, isBlank x = false
  · exact ⟨dropEndWhile isBlank (b ++ t), by rw [dropEndWhile_append_of_exists _ h]; rfl⟩
  · -- Nothing but blanks follows, and the first part ends with no blank.
    have hall : ∀ x ∈ b ++ t, isBlank x = true := fun x hx =>
      Bool.of_not_eq_false fun hf => h ⟨x, hx, hf⟩
    refine ⟨[], ?_⟩
    rw [dropEndWhile_append_of_forall _ hall, List.append_nil, ← trim_cons hnb]
    have hs' : trim s = trim (c :: u) := by
      rw [hab, List.append_assoc, trim_append_of_blank_left ha, trim_append_of_blank hb]
    exact hs'.symm.trans hc

end Text

namespace Line

/-! ## Headers -/

/-- A word is not there if the first letter differs. -/
theorem afterWord?_cons_of_ne {w c : Char} (h : c.toLower ≠ w) (word t : Text) :
    afterWord? (w :: word) (c :: t) = none := by
  rw [afterWord?, if_neg h]

/-- A line that does not start as the word does is no header of a table. -/
theorem tableHeader?_cons_of_ne {c : Char} (h : c.toLower ≠ 't') (t : Text) :
    tableHeader? (c :: t) = none := by
  rw [tableHeader?, afterWord?_cons_of_ne h]

theorem isEnumHeader_cons_of_ne {c : Char} (h : c.toLower ≠ 'e') (t : Text) :
    isEnumHeader (c :: t) = false := by
  rw [isEnumHeader, afterWord?_cons_of_ne h]

theorem isRefHeader_cons_of_ne {c : Char} (h : c.toLower ≠ 'r') (t : Text) :
    isRefHeader (c :: t) = false := by
  rw [isRefHeader, afterWord?_cons_of_ne h]

/-- A line that starts with neither of the three letters opens no block. -/
theorem opened?_cons_of_ne {c : Char} (ht : c.toLower ≠ 't') (he : c.toLower ≠ 'e')
    (hr : c.toLower ≠ 'r') (t : Text) : Block.opened? (c :: t) = none := by
  rw [Block.opened?, tableHeader?_cons_of_ne ht, isEnumHeader_cons_of_ne he,
    isRefHeader_cons_of_ne hr]
  rfl

/-- A block is opened by a table header, an enum header or a reference, and by
    nothing else. -/
theorem opened?_eq_none_iff {t : Line} :
    Block.opened? t = none ↔
      tableHeader? t = none ∧ isEnumHeader t = false ∧ isRefHeader t = false := by
  unfold Block.opened?
  cases tableHeader? t <;> cases isEnumHeader t <;> cases isRefHeader t <;> simp

/-- A block is opened without lines. -/
theorem lines_of_opened? {t : Line} {b : Block} (h : Block.opened? t = some b) : b.lines = [] := by
  unfold Block.opened? at h
  split at h
  · exact Option.some.inj h ▸ rfl
  · split at h
    · exact Option.some.inj h ▸ rfl
    · split at h
      · exact Option.some.inj h ▸ rfl
      · exact nomatch h

/-- Whether a line is a definition, a table or enum header. -/
def isDefinition (line : Line) : Bool :=
  (tableHeader? (Text.trim line)).isSome || isEnumHeader (Text.trim line)

/-- A line is no definition if it is a header neither of a table nor of an enum. -/
theorem isDefinition_eq_false_iff {l : Line} : isDefinition l = false ↔
    tableHeader? (Text.trim l) = none ∧ isEnumHeader (Text.trim l) = false := by
  rw [isDefinition, Bool.or_eq_false_iff, Option.isSome_eq_false_iff, Option.isNone_iff_eq_none]

/-- A table header is no field. -/
theorem fieldName?_eq_none_of_header {t : Line} {h : TableHeader} (ht : tableHeader? t = some h) :
    fieldName? t = none := by
  cases t with
  | nil => rfl
  | cons c t =>
    by_cases hc : c = '"'
    · rw [hc, tableHeader?_cons_of_ne (by decide)] at ht
      exact nomatch ht
    · rw [fieldName?, quotedName?, Option.map_none]
      exact fun u hu => hc (List.cons.inj hu).1

/-! ## Remarks -/

theorem isComment_iff {t : Line} : isComment t = true ↔ ∃ u, t = '/' :: '/' :: u := by
  rw [isComment, List.isPrefixOf_iff_prefix, commentMark]
  exact ⟨fun ⟨u, hu⟩ => ⟨u, hu.symm⟩, fun ⟨u, hu⟩ => ⟨u, hu.symm⟩⟩

/-- A text that starts with the mark is a comment as it stands. -/
theorem isComment_of_prefix {t : Text} (h : commentMark <+: t) :
    isComment (Text.trim t) = true := by
  obtain ⟨u, rfl⟩ := h
  obtain ⟨v, hv⟩ := Text.trim_append_of_ne_nil (s := commentMark) (by decide) u
  rw [hv]
  exact isComment_iff.2 ⟨v, rfl⟩

/-- A comment on a line of its own, without braces. -/
structure IsRemark (l : Line) : Prop where
  isComment : isComment (Text.trim l) = true
  opens_eq : opens l = 0
  closes_eq : closes l = 0

instance (l : Line) : Decidable (IsRemark l) :=
  decidable_of_iff (Line.isComment (Text.trim l) = true ∧ opens l = 0 ∧ closes l = 0)
    ⟨fun ⟨hc, ho, hcl⟩ => ⟨hc, ho, hcl⟩, fun ⟨hc, ho, hcl⟩ => ⟨hc, ho, hcl⟩⟩

namespace IsRemark

variable {l : Line} (h : IsRemark l)
include h

theorem opened?_eq_none : Block.opened? (Text.trim l) = none := by
  obtain ⟨u, hu⟩ := isComment_iff.1 h.isComment
  rw [hu]
  exact opened?_cons_of_ne (by decide) (by decide) (by decide) _

theorem tableHeader?_eq_none : tableHeader? (Text.trim l) = none :=
  (opened?_eq_none_iff.1 h.opened?_eq_none).1

theorem opensComment_eq_false : opensComment (Text.trim l) = false := by
  obtain ⟨u, hu⟩ := isComment_iff.1 h.isComment
  rw [hu]
  rfl

end IsRemark

/-! ## Bare lines -/

/-- A line without comments: no mark stands on it, and it opens no block comment. -/
structure IsBare (l : Line) : Prop where
  noMark : Text.holds commentMark l = false
  noOpening : opensComment (Text.trim l) = false

instance (l : Line) : Decidable (IsBare l) :=
  decidable_of_iff (Text.holds commentMark l = false ∧ opensComment (Text.trim l) = false)
    ⟨fun ⟨hm, ho⟩ => ⟨hm, ho⟩, fun ⟨hm, ho⟩ => ⟨hm, ho⟩⟩

/-- A bare line is no comment. -/
theorem IsBare.isComment_eq_false {l : Line} (h : IsBare l) : isComment (Text.trim l) = false := by
  refine Bool.eq_false_iff.2 fun hc => ?_
  have hin : commentMark <:+: l :=
    (List.isPrefixOf_iff_prefix.1 hc).isInfix.trans (Text.trim_infix l)
  exact Bool.noConfusion (h.noMark.symm.trans (Text.holds_eq_true_iff.2 hin))

/-- A line without the mark of a comment has no comment at its end. -/
theorem inlineComment?_eq_none {l : Line} (h : Text.holds commentMark l = false) :
    inlineComment? l = none := by
  have hbody :
      Text.holds commentMark (if l.getLast? = some '\n' then l.dropLast else l) = false := by
    split
    · refine Bool.eq_false_iff.2 fun hd => ?_
      have hin := (Text.holds_eq_true_iff.1 hd).trans (List.dropLast_prefix l).isInfix
      exact Bool.noConfusion (h.symm.trans (Text.holds_eq_true_iff.2 hin))
    · exact h
  rw [inlineComment?]
  generalize (if l.getLast? = some '\n' then l.dropLast else l) = body at hbody
  cases body with
  | nil => rfl
  | cons c t =>
    rw [Text.holds, Bool.or_eq_false_iff] at hbody
    show (if _ then _ else _) = _
    split
    · rfl
    · rw [Text.cutBefore?_eq_none hbody.2, Option.map_none]

/-- After a space the first mark is that of the comment. -/
theorem inlineComment?_append_space {l c : Line} (hne : l ≠ [])
    (hl : Text.holds commentMark l = false) (hc : commentMark <+: c) (hnl : '\n' ∉ l)
    (hnc : '\n' ∉ c) : inlineComment? (l ++ ' ' :: c) = some (l ++ [' '], c) := by
  have hmem : '\n' ∉ l ++ ' ' :: c := fun h => by
    rcases List.mem_append.1 h with h | h
    · exact hnl h
    · exact hnc (List.mem_of_ne_of_mem (by decide) h)
  have hlast : (l ++ ' ' :: c).getLast? ≠ some '\n' := fun h => hmem (List.mem_of_getLast? h)
  obtain ⟨a, t, rfl⟩ := List.exists_cons_of_ne_nil hne
  rw [Text.holds, Bool.or_eq_false_iff] at hl
  have hcut : Text.cutBefore? commentMark c = some ([], c) := by
    obtain ⟨u, rfl⟩ := hc
    rfl
  have hcontains : (a :: (t ++ ' ' :: c)).contains '\n' = false :=
    Bool.eq_false_iff.2 fun h => hmem (List.contains_iff_mem.1 h)
  rw [inlineComment?, if_neg hlast, List.cons_append]
  show (if (a :: (t ++ ' ' :: c)).contains '\n' = true then none else _) = _
  rw [hcontains, if_neg Bool.false_ne_true, Text.cutBefore?_append_space hl.2, hcut]
  rfl

/-! ## Quoted names -/

/-- A quoted name stands between two quotes, is not empty and holds no quote. -/
theorem quotedName?_eq_some_iff {t name rest : Text} :
    quotedName? t = some (name, rest) ↔
      t = '"' :: name ++ '"' :: rest ∧ name ≠ [] ∧ '"' ∉ name := by
  constructor
  · intro h
    unfold quotedName? at h
    split at h
    · next t =>
      split at h
      · exact nomatch h
      · exact nomatch h
      · next c r hd hne =>
        obtain ⟨rfl, rfl⟩ := Prod.mk.inj (Option.some.inj h)
        -- What stops the run of other characters is a quote.
        have hc : c = '"' := by
          have := List.head_dropWhile_not (· != '"') (l := t)
            (by rw [hd]; exact List.cons_ne_nil _ _)
          simpa [hd] using this
        refine ⟨?_, hne, fun hq => ?_⟩
        · subst hc
          rw [List.cons_append, ← hd, List.takeWhile_append_dropWhile]
        · exact absurd (List.mem_takeWhile_imp hq) (by simp)
    · exact nomatch h
  · rintro ⟨rfl, hne, hq⟩
    rw [List.cons_append, quotedName?, Text.takeWhile_ne_append hq, Text.dropWhile_ne_append hq]
    cases name with
    | nil => exact absurd rfl hne
    | cons c name => rfl

/-- The name of a field stands in quotes at the start, and is not empty. -/
theorem fieldName?_eq_some_iff {t name : Text} :
    fieldName? t = some name ↔ ∃ rest, t = '"' :: name ++ '"' :: rest ∧ name ≠ [] ∧ '"' ∉ name := by
  rw [fieldName?, Option.map_eq_some_iff]
  constructor
  · rintro ⟨⟨n, rest⟩, h, rfl⟩
    exact ⟨rest, quotedName?_eq_some_iff.1 h⟩
  · rintro ⟨rest, h⟩
    exact ⟨(name, rest), quotedName?_eq_some_iff.2 h, rfl⟩

theorem ne_nil_of_name? {t name rest : Text} (h : name? t = some (name, rest)) : name ≠ [] := by
  rw [name?, Option.orElse_eq_orElse, Option.orElse_eq_or, Option.or_eq_some_iff] at h
  rcases h with h | ⟨-, h⟩
  · exact (quotedName?_eq_some_iff.1 h).2.1
  · unfold bareName? at h
    split at h
    · exact nomatch h
    · next hne =>
      obtain ⟨rfl, -⟩ := Prod.mk.inj (Option.some.inj h)
      exact hne

theorem ne_nil_of_dottedName? {t name : Text} (h : dottedName? t = some name) : name ≠ [] := by
  unfold dottedName? at h
  split at h
  · obtain ⟨⟨_, rest⟩, hname, rfl⟩ := Option.map_eq_some_iff.1 h
    exact ne_nil_of_name? hname
  · exact nomatch h

/-- The names on a header are not empty. -/
theorem ne_nil_of_tableHeader? {l : Line} {h : TableHeader} (hl : tableHeader? l = some h) :
    h.table ≠ [] ∧ h.schema ≠ some [] := by
  unfold tableHeader? at hl
  split at hl
  · split at hl
    · unfold headerNames? at hl
      split at hl
      · exact nomatch hl
      · next hname =>
        split at hl
        · next hdotted =>
          rw [← Option.some.inj hl]
          exact ⟨ne_nil_of_dottedName? hdotted,
            fun hs => ne_nil_of_name? hname (Option.some.inj hs)⟩
        · rw [← Option.some.inj hl]
          exact ⟨ne_nil_of_name? hname, nofun⟩
    · exact nomatch hl
  · exact nomatch hl

/-- A trimmed line that starts with a quoted name opens no block and is no comment. -/
theorem of_fieldName? {t name : Text} (h : fieldName? t = some name) (u : Text) :
    Block.opened? (t ++ u) = none ∧ isComment (t ++ u) = false ∧ opensComment (t ++ u) = false := by
  obtain ⟨rest, rfl, -, -⟩ := fieldName?_eq_some_iff.1 h
  exact ⟨opened?_cons_of_ne (by decide) (by decide) (by decide) _, rfl, rfl⟩

/-! ## Lines that go on -/

/-- The line `l'` has the braces of `l`. It is `l` itself, or `l` is the line of a field and `l'`
    goes on where it ends. -/
structure Continues (l l' : Line) : Prop where
  opens_eq : opens l' = opens l
  closes_eq : closes l' = closes l
  trim_eq : l' = l ∨ ∃ field u, fieldName? (Text.trim l) = some field ∧
    Text.trim l' = Text.trim l ++ u

theorem Continues.refl (l : Line) : Continues l l := ⟨rfl, rfl, .inl rfl⟩

/-- The line of a field goes on with a comment without braces. The comment may take the place of a
    carriage return. -/
theorem continues_append {l body : Line} {c field : Text}
    (hf : fieldName? (Text.trim l) = some field) (hb : body = l ∨ l = body ++ ['\r'])
    (ho : opens c = 0) (hc : closes c = 0) : Continues l (body ++ ' ' :: c) := by
  refine ⟨?_, ?_, ?_⟩
  · rw [opens, List.count_append, List.count_cons_of_ne (by decide), ← opens, ← opens, ho]
    rcases hb with rfl | rfl
    · rfl
    · rw [opens, opens, List.count_append]; rfl
  · rw [closes, List.count_append, List.count_cons_of_ne (by decide), ← closes, ← closes, hc]
    rcases hb with rfl | rfl
    · rfl
    · rw [closes, closes, List.count_append]; rfl
  · -- A carriage return at the end is blank, so that the line is trimmed to the same.
    have htrim : Text.trim body = Text.trim l := by
      rcases hb with rfl | rfl
      · rfl
      · exact (Text.trim_append_of_blank (List.all_eq_true.1 rfl) body).symm
    have hne : Text.trim body ≠ [] := by
      obtain ⟨rest, ht, -, -⟩ := fieldName?_eq_some_iff.1 hf
      rw [htrim, ht]
      exact List.cons_ne_nil _ _
    obtain ⟨u, hu⟩ := Text.trim_append_of_ne_nil hne (' ' :: c)
    exact .inr ⟨field, u, hf, htrim ▸ hu⟩

/-- A comment is put after a space, and keeps a carriage return behind it. -/
theorem exists_withComment_eq (l : Line) (c : Text) :
    ∃ body c', withComment l c = body ++ ' ' :: c' ∧ (body = l ∨ l = body ++ ['\r']) ∧ c <+: c' ∧
      opens c' = opens c ∧ closes c' = closes c := by
  rw [withComment]
  split
  · next h =>
    obtain ⟨body, hbody⟩ := List.getLast?_eq_some_iff.1 h
    rw [hbody, List.dropLast_concat, List.append_assoc, List.cons_append]
    refine ⟨body, _, rfl, .inr rfl, List.prefix_append c _, ?_, ?_⟩
    · rw [opens, List.count_append, ← opens]
      split <;> rfl
    · rw [closes, List.count_append, ← closes]
      split <;> rfl
  · exact ⟨l, c, rfl, .inl rfl, List.prefix_rfl, rfl, rfl⟩

/-- A line that took a comment holds its mark. -/
theorem holds_withComment {l c : Line} (hc : commentMark <:+: c) :
    Text.holds commentMark (withComment l c) = true := by
  obtain ⟨body, c', heq, -, hstart, -, -⟩ := exists_withComment_eq l c
  have hsuffix : c' <:+ body ++ ' ' :: c' :=
    (List.suffix_cons ' ' c').trans (List.suffix_append body _)
  rw [Text.holds_eq_true_iff, heq]
  exact hc.trans (hstart.isInfix.trans hsuffix.isInfix)

/-- With a comment that has no braces, the line of a field goes on as what it was. -/
theorem continues_withComment {l : Line} {c field : Text}
    (hf : fieldName? (Text.trim l) = some field) (ho : opens c = 0) (hc : closes c = 0) :
    Continues l (withComment l c) := by
  obtain ⟨body, c', heq, hb, -, ho', hc'⟩ := exists_withComment_eq l c
  rw [heq]
  exact continues_append hf hb (ho'.trans ho) (hc'.trans hc)

namespace Continues

variable {l l' : Line} (h : Continues l l')
include h

theorem opened?_eq : Block.opened? (Text.trim l') = Block.opened? (Text.trim l) := by
  rcases h.trim_eq with rfl | ⟨field, u, hf, hu⟩
  · rfl
  · rw [hu, (of_fieldName? hf u).1, ← List.append_nil (Text.trim l), (of_fieldName? hf []).1]

theorem tableHeader?_eq : tableHeader? (Text.trim l') = tableHeader? (Text.trim l) := by
  rcases h.trim_eq with rfl | ⟨field, u, hf, hu⟩
  · rfl
  · rw [hu, (opened?_eq_none_iff.1 (of_fieldName? hf u).1).1, ← List.append_nil (Text.trim l),
      (opened?_eq_none_iff.1 (of_fieldName? hf []).1).1]

theorem isEnumHeader_eq : isEnumHeader (Text.trim l') = isEnumHeader (Text.trim l) := by
  rcases h.trim_eq with rfl | ⟨field, u, hf, hu⟩
  · rfl
  · rw [hu, (opened?_eq_none_iff.1 (of_fieldName? hf u).1).2.1, ← List.append_nil (Text.trim l),
      (opened?_eq_none_iff.1 (of_fieldName? hf []).1).2.1]

theorem depthChange_eq : depthChange l' = depthChange l := by
  rw [depthChange, depthChange, h.opens_eq, h.closes_eq]

theorem isComment_eq : isComment (Text.trim l') = isComment (Text.trim l) := by
  rcases h.trim_eq with rfl | ⟨field, u, hf, hu⟩
  · rfl
  · rw [hu, (of_fieldName? hf u).2.1, ← List.append_nil (Text.trim l), (of_fieldName? hf []).2.1]

theorem opensComment_eq : opensComment (Text.trim l') = opensComment (Text.trim l) := by
  rcases h.trim_eq with rfl | ⟨field, u, hf, hu⟩
  · rfl
  · rw [hu, (of_fieldName? hf u).2.2, ← List.append_nil (Text.trim l), (of_fieldName? hf []).2.2]

theorem fieldName?_eq : fieldName? (Text.trim l') = fieldName? (Text.trim l) := by
  rcases h.trim_eq with rfl | ⟨field, u, hf, hu⟩
  · rfl
  · rw [hu, hf]
    obtain ⟨rest, ht, hn⟩ := fieldName?_eq_some_iff.1 hf
    exact fieldName?_eq_some_iff.2 ⟨rest ++ u, by rw [ht, List.append_assoc]; rfl, hn⟩

theorem trim_eq_nil_iff : Text.trim l' = [] ↔ Text.trim l = [] := by
  rcases h.trim_eq with rfl | ⟨field, u, hf, hu⟩
  · exact Iff.rfl
  · obtain ⟨rest, ht, -, -⟩ := fieldName?_eq_some_iff.1 hf
    rw [hu, ht]
    exact iff_of_false (List.cons_ne_nil _ _) (List.cons_ne_nil _ _)

theorem isBlankLine_eq : isBlankLine l' = isBlankLine l := by
  rw [Bool.eq_iff_iff, isBlankLine, isBlankLine, List.all_eq_true, List.all_eq_true,
    ← Text.trim_eq_nil_iff, ← Text.trim_eq_nil_iff, h.trim_eq_nil_iff]

end Continues

/-! ## Dressed lines -/

/-- `Dressed l l'`: the line `l'` is `l` as merging leaves it. Nothing happened to it,
    or it is the line of a field, took a comment without braces at its end, and may
    have handed its carriage return on to it. -/
inductive Dressed : Line → Line → Prop
  | plain (l : Line) : Dressed l l
  | comment {l body : Line} {c field : Text} : fieldName? (Text.trim l) = some field →
      body = l ∨ l = body ++ ['\r'] → commentMark <+: c → opens c = 0 → closes c = 0 →
      Dressed l (body ++ ' ' :: c)

/-- Putting a comment at the end of a field's line dresses it. -/
theorem dressed_withComment {l : Line} {c field : Text}
    (hf : fieldName? (Text.trim l) = some field) (hc : commentMark <+: c) (ho : opens c = 0)
    (hcl : closes c = 0) : Dressed l (withComment l c) := by
  obtain ⟨body, c', heq, hb, hstart, ho', hcl'⟩ := exists_withComment_eq l c
  rw [heq]
  exact .comment hf hb (hc.trans hstart) (ho'.trans ho) (hcl'.trans hcl)

/-- A dressed line goes on as what it was. -/
theorem Dressed.continues {l l' : Line} (h : Dressed l l') : Continues l l' := by
  cases h with
  | plain => exact .refl l
  | comment hf hb _ ho hc => exact continues_append hf hb ho hc

end Line

end DbmlRestore
