import DbmlRestore.Proofs.Comment.Rereading

/-!
# Comments assigned to tables

Comments for the tables of a schema (`TableComments`) are written down table by table,
between those of the schema's header and its footer (`Comment.assigned`). They are looked
up by the name of the table alone, so a table finds its own if the names are different
(`Comment.textsOn_assigned`). A field is looked up by a key made of both names with a dot
between them; without a dot in the table names the keys are different too
(`Anchor.key_inj`), and a field finds its own comment (`Comment.inlineText?_assigned`).
-/

namespace DbmlRestore

/-! ## Lists with keys -/

section Keys

variable {α β γ : Type}

/-- Of elements with different keys, only the one with the key counts. -/
theorem flatMap_eq_of_nodup {key : α → γ} {f : α → List β} {as : List α} {a : α}
    (hn : (as.map key).Nodup) (ha : a ∈ as) (hf : ∀ b ∈ as, key b ≠ key a → f b = []) :
    as.flatMap f = f a := by
  induction as with
  | nil => exact absurd ha List.not_mem_nil
  | cons b as ih =>
    rw [List.map_cons, List.nodup_cons] at hn
    rw [List.flatMap_cons]
    rcases List.mem_cons.1 ha with rfl | ha
    · have hrest : as.flatMap f = [] := List.flatMap_eq_nil_iff.2 fun c hc =>
        hf c (List.mem_cons_of_mem a hc) fun e => hn.1 (e ▸ List.mem_map_of_mem hc)
      rw [hrest, List.append_nil]
    · have hb : f b = [] :=
        hf b List.mem_cons_self fun e => hn.1 (e ▸ List.mem_map_of_mem ha)
      rw [hb, List.nil_append, ih hn.2 ha fun c hc => hf c (List.mem_cons_of_mem b hc)]

theorem filter_eq_of_nodup [DecidableEq γ] (key : α → γ) {as : List α} {a : α}
    (hn : (as.map key).Nodup) (ha : a ∈ as) : as.filter (key · = key a) = [a] := by
  have h := List.filter_flatMap (l := as) (g := fun b => [b]) (f := fun b => key b = key a)
  rw [List.flatMap_singleton', flatMap_eq_of_nodup hn ha fun b _ hb => by simp [hb]] at h
  rw [h]
  simp

/-- Elements that count and stand once in a list are met in order. -/
theorem flatMap_eq_of_sublist [BEq α] [LawfulBEq α] {f : α → List β} {ks as : List α}
    (h : ks.Sublist as) (hc : ∀ k ∈ ks, as.count k = 1) (hf : ∀ a ∈ as, a ∉ ks → f a = []) :
    as.flatMap f = ks.flatMap f := by
  induction h with
  | slnil => rfl
  | @cons ks as a h ih =>
    -- The element that is left out occurs once at most, and not among the others.
    have ha : a ∉ ks := fun hmem => by
      have := hc a hmem
      have := List.count_pos_iff.2 (h.subset hmem)
      rw [List.count_cons_self] at *
      omega
    have hc' : ∀ k ∈ ks, as.count k = 1 := fun k hk => by
      have hne : a ≠ k := fun e => ha (e ▸ hk)
      rw [← hc k hk, List.count_cons_of_ne hne]
    rw [List.flatMap_cons, hf a List.mem_cons_self ha, List.nil_append,
      ih hc' fun b hb => hf b (List.mem_cons_of_mem a hb)]
  | @cons_cons ks as a h ih =>
    have ha : a ∉ as := fun hmem => by
      have := hc a List.mem_cons_self
      have := List.count_pos_iff.2 hmem
      rw [List.count_cons_self] at *
      omega
    have hc' : ∀ k ∈ ks, as.count k = 1 := fun k hk => by
      have hne : a ≠ k := fun e => ha (e ▸ h.subset hk)
      rw [← hc k (List.mem_cons_of_mem a hk), List.count_cons_of_ne hne]
    have hf' : ∀ b ∈ as, b ∉ ks → f b = [] := fun b hb hk =>
      hf b (List.mem_cons_of_mem a hb) fun hmem => by
        rcases List.mem_cons.1 hmem with rfl | hmem
        · exact ha hb
        · exact hk hmem
    rw [List.flatMap_cons, List.flatMap_cons, ih hc' hf']

end Keys

/-- A table without a dot and a field make a key of their own. -/
theorem Anchor.key_inj {t t' f f' : Text} (ht : '.' ∉ t) (ht' : '.' ∉ t')
    (h : key t f = key t' f') : t = t' ∧ f = f' := by
  have htable := congrArg (List.takeWhile (· != '.')) h
  have hfield := congrArg (List.dropWhile (· != '.')) h
  rw [key, key, Text.takeWhile_ne_append ht, Text.takeWhile_ne_append ht'] at htable
  rw [key, key, Text.dropWhile_ne_append ht, Text.dropWhile_ne_append ht'] at hfield
  exact ⟨htable, (List.cons.inj hfield).2⟩

/-! ## Comments for the tables of a text -/

/-- Comments for one table. -/
structure TableComments where
  /-- The comment on the table. -/
  above? : Option Text
  /-- The comments inside of its body. -/
  inside : List Text
  /-- The fields that have a comment, with their comments. -/
  ends : List (Text × Text)

namespace TableComments

/-- The comments as records. -/
def records (tc : TableComments) (table : Text) : List Comment :=
  tc.above?.toList.map (.onTable · table) ++ tc.inside.map (.inBody · table) ++
    tc.ends.map fun e => .inline e.2 table e.1

end TableComments

namespace Comment

/-- A list of comments: at most one on the schema's header, those for some tables in
    order, and at most one on its footer. -/
def assigned {α : Type} (header? footer? : Option Text) (table : α → Text)
    (part : α → TableComments) (as : List α) : List Comment :=
  header?.toList.map .header ++ as.flatMap (fun a => (part a).records (table a)) ++
    footer?.toList.map .footer

variable {α : Type} {header? footer? : Option Text} {table : α → Text} {part : α → TableComments}
  {as : List α} {a : α}

/-! ### Looking up -/

/-- The texts for the top are the assigned header alone. -/
theorem textsOf_assigned_header :
    textsOf (assigned header? footer? table part as) .header = header?.toList := by
  simp [textsOf, assigned, TableComments.records, List.filter_flatMap, List.filter_map,
    Function.comp_def, header, footer, onTable, inBody, inline]

/-- The texts for the bottom are the assigned footer alone. -/
theorem textsOf_assigned_footer :
    textsOf (assigned header? footer? table part as) .footer = footer?.toList := by
  simp [textsOf, assigned, TableComments.records, List.filter_flatMap, List.filter_map,
    Function.comp_def, header, footer, onTable, inBody, inline]

/-- The records for a table name it. -/
theorem table_of_mem_records {tc : TableComments} {t : Text} {c : Comment}
    (h : c ∈ tc.records t) : c.anchor.table = some t := by
  rcases List.mem_append.1 h with h | h
  · rcases List.mem_append.1 h with h | h <;> obtain ⟨_, -, rfl⟩ := List.mem_map.1 h <;> rfl
  · obtain ⟨_, -, rfl⟩ := List.mem_map.1 h
    rfl

/-- What is looked up for one table is found among the comments for its section. -/
theorem filter_assigned {p : Comment → Bool} (hn : (as.map table).Nodup) (ha : a ∈ as)
    (hnone : ∀ c : Comment, c.anchor.table = none → p c = false)
    (hother : ∀ b ∈ as, table b ≠ table a → ∀ c : Comment,
      c.anchor.table = some (table b) → p c = false) :
    (assigned header? footer? table part as).filter p =
      ((part a).records (table a)).filter p := by
  have hends : (header?.toList.map Comment.header).filter p = [] ∧
      (footer?.toList.map Comment.footer).filter p = [] := by
    constructor
    all_goals
      refine List.filter_eq_nil_iff.2 fun c hc => ?_
      obtain ⟨_, -, rfl⟩ := List.mem_map.1 hc
      exact Bool.eq_false_iff.1 (hnone _ rfl)
  rw [assigned, List.filter_append, List.filter_append, hends.1, hends.2, List.append_nil,
    List.nil_append, List.filter_flatMap]
  refine flatMap_eq_of_nodup hn ha fun b hb hne => ?_
  exact List.filter_eq_nil_iff.2 fun c hc =>
    Bool.eq_false_iff.1 (hother b hb hne c (table_of_mem_records hc))

/-- The texts that are assigned to a table are found under its name, if no other has this name. -/
theorem textsOn_assigned (hn : (as.map table).Nodup) (ha : a ∈ as)
    (kind : CommentKind) :
    textsOn (assigned header? footer? table part as) kind (table a) =
      textsOn ((part a).records (table a)) kind (table a) := by
  rw [textsOn, filter_assigned hn ha, ← textsOn]
  · intro c hc
    simp [hc]
  · intro b _ hne c hc
    simp [hc, hne]

/-- The comment above a table is the only one of its kind. -/
theorem textsOn_records_table (tc : TableComments) (t : Text) :
    textsOn (tc.records t) .table t = tc.above?.toList := by
  simp [textsOn, TableComments.records, List.filter_map, Function.comp_def, onTable, inBody, inline]

/-- The comments inside of a table are those for its body. -/
theorem textsOn_records_field (tc : TableComments) (t : Text) :
    textsOn (tc.records t) .field t = tc.inside := by
  simp [textsOn, TableComments.records, List.filter_map, Function.comp_def, onTable, inBody, inline]

/-- A field finds the comment that it has. -/
theorem inlineText?_assigned (hn : (as.map table).Nodup) (hdot : ∀ b ∈ as, '.' ∉ table b)
    (ha : a ∈ as) (field : Text) :
    inlineText? (assigned header? footer? table part as) (table a) field =
      (((part a).ends.filter (·.1 = field)).getLast?).map (·.2) := by
  rw [inlineText?, filter_assigned hn ha]
  · simp [TableComments.records, List.filter_map, Function.comp_def, onTable, inBody, inline,
      Anchor.inlineKey?, Anchor.key]
  · intro c hc
    simp [Anchor.inlineKey?, hc]
  · intro b hb hne c hc
    refine decide_eq_false fun h => ?_
    obtain ⟨-, hkey⟩ := h
    rw [Anchor.inlineKey?, hc] at hkey
    cases hf : c.anchor.field with
    | none => rw [hf] at hkey; exact nomatch hkey
    | some f =>
      rw [hf] at hkey
      exact hne (Anchor.key_inj (hdot b hb) (hdot a ha) (Option.some.inj hkey)).1

/-- The lines of one comment are grouped to this comment again. -/
theorem grouped_toList (record : Text → Comment) (t? : Option Text) :
    grouped record (t?.toList.flatMap Text.lines) = t?.toList.map record := by
  cases t? with
  | none => rfl
  | some t =>
    have hne : (Text.lines t).isEmpty = false := by
      rw [List.isEmpty_eq_false_iff]
      exact Text.lines_ne_nil t
    rw [Option.toList_some, List.flatMap_singleton, grouped, hne, if_neg Bool.false_ne_true,
      Text.unlines_lines]
    rfl

end Comment

end DbmlRestore
